import UIoT.Mqtt.PacketIds

/-!
# The table of handlers

No two slots hold the same filter with the same message handler: a handler goes
into a free slot only after all slots have been compared with it.  Subscribing
again to what the table holds therefore changes nothing, as long as the
acknowledgements are not taken for those of requests that still wait.
-/

namespace UIoT
namespace Mqtt

/-! ## Identical handlers -/

/-- Two handlers are identical if they have the same filter text and the same
message handler. -/
theorem checkHandleIsIdentical_iff (first second : SubTopicHandle) :
    checkHandleIsIdentical first second = true ↔
      ∃ filter1 filter2, first.topicFilter = some filter1 ∧
        second.topicFilter = some filter2 ∧ filter1.text = filter2.text ∧
        first.messageHandler = second.messageHandler := by
  unfold checkHandleIsIdentical
  cases first.topicFilter with
  | none => simp
  | some filter1 =>
      cases second.topicFilter with
      | none => simp
      | some filter2 =>
          simp only [Bool.and_eq_true, beq_iff_eq]
          constructor
          · rintro ⟨⟨-, bytes⟩, handler⟩
            exact ⟨filter1, filter2, rfl, rfl, CString.ext bytes, handler⟩
          · rintro ⟨_, _, ⟨rfl⟩, ⟨rfl⟩, text, handler⟩
            rw [text]
            exact ⟨⟨rfl, rfl⟩, handler⟩

theorem checkHandleIsIdentical_comm (first second : SubTopicHandle) :
    checkHandleIsIdentical first second =
      checkHandleIsIdentical second first := by
  rw [Bool.eq_iff_iff, checkHandleIsIdentical_iff, checkHandleIsIdentical_iff]
  constructor
  · rintro ⟨filter1, filter2, left, right, text, handler⟩
    exact ⟨filter2, filter1, right, left, text.symm, handler.symm⟩
  · rintro ⟨filter1, filter2, left, right, text, handler⟩
    exact ⟨filter2, filter1, right, left, text.symm, handler.symm⟩

/-- The loop over the slots stops at an identical handler, or has found none
and the first free slot. -/
theorem scanHandles_cases (subHandles : Fin maxSubTopics → SubTopicHandle)
    (subHandle : SubTopicHandle) (slots : List (Fin maxSubTopics))
    (free : Option (Fin maxSubTopics)) :
    (∃ i ∈ slots, checkHandleIsIdentical (subHandles i) subHandle = true ∧
        ∃ found, scanHandles subHandles subHandle slots free =
          (true, found)) ∨
      ((∀ i ∈ slots,
          checkHandleIsIdentical (subHandles i) subHandle = false) ∧
        scanHandles subHandles subHandle slots free =
          (false, free.or
            (slots.find? fun i => (subHandles i).topicFilter.isNone))) := by
  induction slots generalizing free with
  | nil => exact .inr ⟨by simp, by simp [scanHandles]⟩
  | cons i slots inductionHypothesis =>
      unfold scanHandles
      cases occupied : (subHandles i).topicFilter with
      | none =>
          have different :
              checkHandleIsIdentical (subHandles i) subHandle = false := by
            simp [checkHandleIsIdentical, occupied]
          simp only [Option.isSome_none, Bool.false_eq_true, if_false]
          rcases inductionHypothesis (free.or (some i)) with
            ⟨j, mem, identical, found⟩ | ⟨others, scanned⟩
          · exact .inl ⟨j, List.mem_cons_of_mem i mem, identical, found⟩
          · refine .inr ⟨List.forall_mem_cons.mpr ⟨different, others⟩, ?_⟩
            rw [scanned, List.find?_cons_of_pos (by simp [occupied])]
            cases free <;> rfl
      | some filter =>
          simp only [Option.isSome_some, if_true]
          split
          · rename_i identical
            exact .inl ⟨i, List.mem_cons_self, identical, free, rfl⟩
          · rename_i different
            rcases inductionHypothesis free with
              ⟨j, mem, identical, found⟩ | ⟨others, scanned⟩
            · exact .inl ⟨j, List.mem_cons_of_mem i mem, identical, found⟩
            · refine .inr ⟨List.forall_mem_cons.mpr
                ⟨Bool.eq_false_iff.mpr different, others⟩, ?_⟩
              rw [scanned, List.find?_cons_of_neg (by simp [occupied])]

namespace Books

/-- The ways an installation can go. -/
inductive Installs (b : Books) (packetId : UInt16)
    (subHandle : SubTopicHandle) : Bool → Books → Prop
  | missing {nack} (filter : subHandle.topicFilter = none) :
      Installs b packetId subHandle nack b
  | refused (filter : subHandle.topicFilter ≠ none) :
      Installs b packetId subHandle true
        ((b.raise (.subscribeNack packetId)).free subHandle.topicFilter)
  | known {i} (filter : subHandle.topicFilter ≠ none)
      (identical : checkHandleIsIdentical (b.subHandles i) subHandle = true) :
      Installs b packetId subHandle false
        ((b.free subHandle.topicFilter).raise (.subscribeSuccess packetId))
  | full (filter : subHandle.topicFilter ≠ none)
      (different : ∀ i,
        checkHandleIsIdentical (b.subHandles i) subHandle = false)
      (occupied : ∀ i, (b.subHandles i).topicFilter ≠ none) :
      Installs b packetId subHandle false b
  | added {i} (filter : subHandle.topicFilter ≠ none)
      (different : ∀ i,
        checkHandleIsIdentical (b.subHandles i) subHandle = false)
      (unoccupied : (b.subHandles i).topicFilter = none) :
      Installs b packetId subHandle false
        (raise
          { b with subHandles := Function.update b.subHandles i subHandle }
          (.subscribeSuccess packetId))

/-- Every installation goes one of these ways. -/
theorem install_installs (b : Books) (packetId : UInt16)
    (subHandle : SubTopicHandle) (nack : Bool) :
    b.Installs packetId subHandle nack (b.install packetId subHandle nack) := by
  unfold install
  split
  · rename_i missing
    exact .missing missing
  rename_i filter
  cases nack with
  | true => exact .refused filter
  | false =>
      rw [if_neg (by simp)]
      rcases scanHandles_cases b.subHandles subHandle
          (List.finRange maxSubTopics) none with
        ⟨i, -, identical, found, scanned⟩ | ⟨different, scanned⟩
      · rw [scanned]
        exact .known filter identical
      · have allDifferent : ∀ i,
            checkHandleIsIdentical (b.subHandles i) subHandle = false :=
          fun i => different i (List.mem_finRange i)
        rw [scanned, Option.none_or]
        cases free : (List.finRange maxSubTopics).find?
            fun i => (b.subHandles i).topicFilter.isNone with
        | none =>
            refine .full filter allDifferent fun i => ?_
            have occupied := List.find?_eq_none.mp free i (List.mem_finRange i)
            simpa using occupied
        | some i =>
            refine .added filter allDifferent ?_
            simpa using List.find?_some free

/-- The table stays as it was, or a free slot takes the handler that no slot
held. -/
theorem Installs.subHandles {b after : Books} {packetId : UInt16}
    {subHandle : SubTopicHandle} {nack : Bool}
    (installs : b.Installs packetId subHandle nack after) :
    after.subHandles = b.subHandles ∨
      ((∀ i, checkHandleIsIdentical (b.subHandles i) subHandle = false) ∧
        ∃ i, after.subHandles = Function.update b.subHandles i subHandle) := by
  cases installs with
  | missing filter => exact .inl rfl
  | refused filter => exact .inl rfl
  | known filter identical => exact .inl rfl
  | full filter different occupied => exact .inl rfl
  | @added i filter different unoccupied => exact .inr ⟨different, i, rfl⟩

/-- The table has room for a handler: a slot holds it already or is free. -/
def HasRoomFor (b : Books) (subHandle : SubTopicHandle) : Prop :=
  ∃ i, checkHandleIsIdentical (b.subHandles i) subHandle = true ∨
    (b.subHandles i).topicFilter = none

/-- A handler with a filter that is refused or that the table has room for
ends with one event. -/
theorem Installs.events {b after : Books} {packetId : UInt16}
    {subHandle : SubTopicHandle} {nack : Bool}
    (installs : b.Installs packetId subHandle nack after)
    (listens : b.eventHandler = true)
    (filter : subHandle.topicFilter ≠ none)
    (room : nack = true ∨ b.HasRoomFor subHandle) :
    after.events = b.events ++
      [if nack then .subscribeNack packetId else .subscribeSuccess packetId] := by
  cases installs with
  | missing missing => exact absurd missing filter
  | refused _ => exact raise_events b listens
  | known _ identical => exact raise_events _ listens
  | full _ different occupied =>
      rcases room with refused | ⟨i, identical | unoccupied⟩
      · exact absurd refused (by simp)
      · exact absurd identical (by simp [different i])
      · exact absurd unoccupied (occupied i)
  | added _ different unoccupied => exact raise_events _ listens

/-- A slot holds the handler. -/
def Holds (b : Books) (subHandle : SubTopicHandle) : Prop :=
  ∃ i, checkHandleIsIdentical (b.subHandles i) subHandle = true

/-- Where a success is raised, a slot holds the handler. -/
theorem Installs.holds {b after : Books} {packetId : UInt16}
    {subHandle : SubTopicHandle} {nack : Bool}
    (installs : b.Installs packetId subHandle nack after)
    (raised :
      .subscribeSuccess packetId ∈ after.events.drop b.events.length) :
    after.Holds subHandle := by
  cases installs with
  | missing missing => simp at raised
  | refused _ => exact absurd (mem_drop_raise b raised) (by simp)
  | @known i _ identical => exact ⟨i, identical⟩
  | full _ different occupied => simp at raised
  | @added i filter different unoccupied =>
      obtain ⟨topic, isSome⟩ := Option.ne_none_iff_exists'.mp filter
      refine ⟨i, ?_⟩
      change checkHandleIsIdentical
        (Function.update b.subHandles i subHandle i) subHandle = true
      rw [Function.update_self, checkHandleIsIdentical_iff]
      exact ⟨topic, topic, isSome, isSome, rfl, rfl⟩

/-! ## Distinct handlers -/

/-- No two slots are identical. -/
def HandlesDistinct (b : Books) : Prop :=
  ∀ i j, i ≠ j →
    checkHandleIsIdentical (b.subHandles i) (b.subHandles j) = false

/-- Emptying slots keeps the handlers distinct. -/
theorem HandlesDistinct.of_emptied {b after : Books}
    (distinct : b.HandlesDistinct)
    (emptied : ∀ i, after.subHandles i = b.subHandles i ∨
      (after.subHandles i).topicFilter = none) :
    after.HandlesDistinct := by
  intro i j apart
  rcases emptied i with sameLeft | freeLeft
  · rcases emptied j with sameRight | freeRight
    · rw [sameLeft, sameRight]
      exact distinct i j apart
    · unfold checkHandleIsIdentical
      rw [freeRight]
      split <;> simp_all
  · unfold checkHandleIsIdentical
    rw [freeLeft]

/-- A handler that no slot holds may go into any slot. -/
theorem HandlesDistinct.update {b : Books} (distinct : b.HandlesDistinct)
    {subHandle : SubTopicHandle}
    (new : ∀ i, checkHandleIsIdentical (b.subHandles i) subHandle = false)
    (slot : Fin maxSubTopics) :
    ∀ i j, i ≠ j →
      checkHandleIsIdentical (Function.update b.subHandles slot subHandle i)
        (Function.update b.subHandles slot subHandle j) = false := by
  intro i j apart
  by_cases left : i = slot
  · subst left
    rw [Function.update_self, Function.update_of_ne apart.symm,
      checkHandleIsIdentical_comm]
    exact new j
  · by_cases right : j = slot
    · subst right
      rw [Function.update_self, Function.update_of_ne left]
      exact new i
    · rw [Function.update_of_ne left, Function.update_of_ne right]
      exact distinct i j apart

/-- Installing a handler keeps the handlers distinct. -/
theorem HandlesDistinct.install {b : Books} (distinct : b.HandlesDistinct)
    (packetId : UInt16) (subHandle : SubTopicHandle) (nack : Bool) :
    (b.install packetId subHandle nack).HandlesDistinct := by
  unfold HandlesDistinct
  rcases (b.install_installs packetId subHandle nack).subHandles with
    same | ⟨new, slot, updated⟩
  · rw [same]
    exact distinct
  · rw [updated]
    exact distinct.update new slot

/-- Marking nodes does not touch the table. -/
@[simp] theorem maskSub_subHandles (b : Books) (packetId : UInt16)
    (iteratorAllocated : Bool) :
    (b.maskSub packetId iteratorAllocated).subHandles = b.subHandles := by
  rw [maskSub_frame]

/-- Every effect keeps the handlers distinct. -/
theorem Effect.handlesDistinct {c : Client} {op : Op} {after : Books}
    (effect : Effect c op after) (distinct : c.books.HandlesDistinct) :
    after.HandlesDistinct := by
  cases effect with
  | publish _ tracks =>
      exact distinct.of_emptied fun i =>
        .inl (congrFun tracks.subHandles i)
  | subscribe _ tracks _ => exact distinct.of_emptied tracks.subHandles
  | unsubscribe _ tracks => exact distinct.of_emptied tracks.subHandles
  | untracked _ nothing => exact distinct.of_emptied nothing.subHandles
  | sweepPub => exact distinct
  | sweepSub => exact distinct
  | kept _ kept =>
      obtain ⟨_, rfl, -⟩ := kept
      exact distinct
  | @cycle env _ receives =>
      generalize c.received env = received at receives
      cases received with
      | puback packetId =>
          rw [show after = _ from receives]
          exact distinct
      | suback packet =>
          rw [show after = _ from receives]
          have masked : (c.books.maskSub packet.packetId
              env.iteratorAllocated).HandlesDistinct := by
            unfold HandlesDistinct
            rw [maskSub_subHandles]
            exact distinct
          exact HandlesDistinct.install masked packet.packetId _ _
      | unsuback packetId =>
          rw [show after = _ from receives]
          exact distinct.of_emptied fun i =>
            .inl (congrFun (maskSub_subHandles ..) i)
      | other =>
          obtain ⟨_, rfl, -⟩ := receives
          exact distinct

end Books

/-- In every state a client can get into, no two slots are identical. -/
theorem run_handlesDistinct (params : MQTTInitParams) (clock : Nat)
    (labels : List Op) :
    (Machine.run Client.step (uiotMqttInit params clock)
      labels).books.HandlesDistinct := by
  have both := Machine.run_preserves
    (fun c : Client => c.books.HeapOrdered ∧ c.books.HandlesDistinct)
    (fun c op ⟨ordered, distinct⟩ =>
      ⟨c.step_heapOrdered op ordered,
        (c.step_effect op ordered).handlesDistinct distinct⟩)
    ⟨uiotMqttInit_heapOrdered params clock, fun i j _ => rfl⟩ labels
  exact both.2

/-! ## Subscribing again -/

/-- The occupied ones among the slots. -/
def occupiedSlots (subHandles : Fin maxSubTopics → SubTopicHandle)
    (slots : List (Fin maxSubTopics)) : List (Fin maxSubTopics) :=
  slots.filter fun i => (subHandles i).topicFilter.isSome

/-- Subscribing again adds nodes for handlers the table holds, one for an
occupied slot at most, under the next identifiers. -/
theorem resubscribeLoop_adds (envs : Fin maxSubTopics → RequestEnv)
    (slots : List (Fin maxSubTopics)) (c : Client)
    (ordered : c.books.HeapOrdered) :
    let after := (resubscribeLoop envs slots c).1
    after.subHandles = c.subHandles ∧
      ∃ added, after.listSubWaitAck = c.listSubWaitAck ++ added ∧
        (∀ info ∈ added, ∃ i,
          checkHandleIsIdentical (c.subHandles i) info.handler = true) ∧
        added.map UIoTSubInfo.msgId =
          (List.range added.length).map
            (fun later => nextId^[later + 1] c.nextPacketId) ∧
        added.length ≤ (occupiedSlots c.subHandles slots).length := by
  induction slots generalizing c with
  | nil => exact ⟨rfl, [], by simp [resubscribeLoop], by simp, rfl, by simp⟩
  | cons i slots inductionHypothesis =>
      intro after
      cases occupied : (c.subHandles i).topicFilter with
      | none =>
          have after_eq : after = (resubscribeLoop envs slots c).1 :=
            congrArg Prod.fst (resubscribeLoop_empty envs slots occupied)
          rw [after_eq, occupiedSlots, List.filter_cons_of_neg
            (by simp [occupied])]
          exact inductionHypothesis c ordered
      | some topic =>
          let params : SubscribeParams := ⟨(c.subHandles i).qos,
            (c.subHandles i).messageHandler,
            (c.subHandles i).messageHandlerData⟩
          have longer : (occupiedSlots c.subHandles (i :: slots)).length =
              (occupiedSlots c.subHandles slots).length + 1 := by
            rw [occupiedSlots, List.filter_cons_of_pos (by simp [occupied])]
            rfl
          rw [longer]
          have stepOrdered := c.step_heapOrdered
            (.subscribe topic.text params (envs i)) ordered
          rw [Client.step] at stepOrdered
          have cases' := uiotMqttSubscribe_cases c topic.text params (envs i)
          generalize requested : uiotMqttSubscribe c topic.text params
            (envs i) = result at cases' stepOrdered
          obtain ⟨next, answer⟩ := result
          rcases cases' with
            ⟨-, tracks, slotsKept, rfl⟩ | ⟨-, nothing, slotsKept, error⟩
          · have after_eq : after = (resubscribeLoop envs slots next).1 :=
              congrArg Prod.fst
                (resubscribeLoop_subscribed envs slots occupied requested)
            rw [after_eq]
            obtain ⟨restKept, added, appended, known, ids, fewer⟩ :=
              inductionHypothesis next stepOrdered
            have nextHandles : next.subHandles = c.subHandles := slotsKept
            have nextId_eq : next.nextPacketId = nextId c.nextPacketId :=
              tracks.nextPacketId
            have nodes : next.listSubWaitAck = c.listSubWaitAck ++
              [c.subscribeInfo topic.text params] := tracks.listSubWaitAck
            rw [nextHandles] at restKept known fewer
            refine ⟨restKept, c.subscribeInfo topic.text params :: added, ?_,
              ?_, ?_, Nat.succ_le_succ fewer⟩
            · rw [appended, nodes, List.append_assoc, List.singleton_append]
            · refine List.forall_mem_cons.mpr ⟨⟨i, ?_⟩, known⟩
              rw [checkHandleIsIdentical_iff]
              exact ⟨topic, _, occupied, rfl, rfl, rfl⟩
            · rw [List.map_cons, ids, nextId_eq, List.length_cons,
                List.range_succ_eq_map, List.map_cons, List.map_map]
              rfl
          · cases answer with
            | ok packetId => exact absurd rfl (error packetId)
            | error ret =>
                have after_eq : after = next := congrArg Prod.fst
                  (resubscribeLoop_refused envs slots occupied requested)
                rw [after_eq]
                refine ⟨slotsKept, [], ?_, by simp, rfl, by simp⟩
                rw [List.append_nil]
                exact nothing.listSubWaitAck ordered

/-- The nodes with one of the identifiers are for handlers the table holds. -/
def Books.CarriersKnown (ids : List UInt16) (b : Books) : Prop :=
  ∀ info ∈ b.listSubWaitAck, info.msgId ∈ ids →
    ∃ i, checkHandleIsIdentical (b.subHandles i) info.handler = true

/-- An acknowledgement for a handler the table holds changes no slot. -/
theorem Books.CarriersKnown.suback {ids : List UInt16} {b : Books}
    (known : b.CarriersKnown ids) (packet : SubackPacket)
    (iteratorAllocated : Bool) (mem : packet.packetId ∈ ids) :
    (b.suback packet iteratorAllocated).subHandles = b.subHandles ∧
      (b.suback packet iteratorAllocated).CarriersKnown ids := by
  have same : (b.suback packet iteratorAllocated).subHandles =
      b.subHandles := by
    rw [Books.suback]
    rcases b.maskedHandler_cases packet.packetId .zero iteratorAllocated with
      ⟨-, initial⟩ | ⟨info, listed, carries, handler⟩
    · rw [initial, Books.install_of_none _ rfl, Books.maskSub_subHandles]
    · rw [handler]
      rcases ((b.maskSub packet.packetId iteratorAllocated).install_installs
          packet.packetId info.handler (Books.subNack packet)).subHandles with
        kept | ⟨new, -⟩
      · rw [kept, Books.maskSub_subHandles]
      · obtain ⟨i, identical⟩ := known info listed (carries ▸ mem)
        have different := new i
        rw [Books.maskSub_subHandles, identical] at different
        exact absurd different (by simp)
  refine ⟨same, fun info listed carries => ?_⟩
  rw [same]
  rw [Books.suback_listSubWaitAck, Books.maskSub_frame] at listed
  dsimp only at listed
  split at listed
  · obtain ⟨old, oldListed, rfl⟩ := List.mem_map.mp listed
    rw [UIoTSubInfo.msgId_mask] at carries
    rw [UIoTSubInfo.handler_mask]
    exact known old oldListed carries
  · exact known info listed carries

/-- A cycle receives a SUBACK without a refusal for one of the identifiers. -/
def AcksOneOf (ids : List UInt16) (c : Client) (env : CycleEnv) : Prop :=
  ∃ packet, c.received env = .suback packet ∧ packet.packetId ∈ ids ∧
    Books.subNack packet = false

/-- The client after a cycle. -/
def Client.cycle (c : Client) (env : CycleEnv) : Client :=
  (cycleForRead c 0 env).1

/-- Acknowledgements for handlers the table holds, however many and in any
order, change no slot. -/
theorem run_cycle_subHandles {ids : List UInt16} (c : Client)
    (known : c.books.CarriersKnown ids) {acks : List CycleEnv}
    (acked : Machine.Along Client.cycle (AcksOneOf ids) c acks) :
    (Machine.run Client.cycle c acks).subHandles = c.subHandles := by
  have both := Machine.Along.run_preserves
    (fun other : Client => other.subHandles = c.subHandles ∧
      other.books.CarriersKnown ids)
    (fun other env ⟨same, carriers⟩ ⟨packet, received, mem, _⟩ => by
      have receives := cycleForRead_receives other 0 env
      rw [received] at receives
      have books : (other.cycle env).books =
          other.books.suback packet env.iteratorAllocated := receives
      obtain ⟨kept, stillKnown⟩ :=
        carriers.suback packet env.iteratorAllocated mem
      rw [← books] at kept stillKnown
      exact ⟨kept.trans same, stillKnown⟩)
    ⟨rfl, known⟩ acked
  exact both.1

/-- The identifiers of the requests that subscribing again has sent. -/
def resentIds (c resubscribed : Client) : List UInt16 :=
  (resubscribed.listSubWaitAck.drop c.listSubWaitAck.length).map
    UIoTSubInfo.msgId

/-- Subscribing again and a successful SUBACK for what it sent leave every slot
as it was, whatever the requests and the cycles meet. -/
def ResubscriptionKeeps (c : Client) : Prop :=
  ∀ envs acks,
    let resubscribed := (uiotMqttResubscribe c envs).1
    Machine.Along Client.cycle (AcksOneOf (resentIds c resubscribed))
        resubscribed acks →
      (Machine.run Client.cycle resubscribed acks).subHandles = c.subHandles

/-- No node that is listed carries one of the identifiers that come next, one
for each occupied slot. -/
def NextIdsFree (c : Client) : Prop :=
  ∀ info ∈ c.listSubWaitAck,
    ∀ later <
        (occupiedSlots c.subHandles (List.finRange maxSubTopics)).length,
      info.msgId ≠ nextId^[later + 1] c.nextPacketId

/-- With the identifiers that come next free, subscribing again changes
nothing. -/
theorem resubscriptionKeeps_of_nextIdsFree (c : Client)
    (ordered : c.books.HeapOrdered) (free : NextIdsFree c) :
    ResubscriptionKeeps c := by
  intro envs acks resubscribed acked
  obtain ⟨kept, added, appended, known, ids, fewer⟩ :
      resubscribed.subHandles = c.subHandles ∧
        ∃ added, resubscribed.listSubWaitAck = c.listSubWaitAck ++ added ∧
          (∀ info ∈ added, ∃ i,
            checkHandleIsIdentical (c.subHandles i) info.handler = true) ∧
          added.map UIoTSubInfo.msgId =
            (List.range added.length).map
              (fun later => nextId^[later + 1] c.nextPacketId) ∧
          added.length ≤ (occupiedSlots c.subHandles
            (List.finRange maxSubTopics)).length := by
    unfold resubscribed uiotMqttResubscribe
    split
    · exact ⟨rfl, [], by simp, by simp, rfl, by simp⟩
    · exact resubscribeLoop_adds envs _ c ordered
  have resent : resentIds c resubscribed = added.map UIoTSubInfo.msgId := by
    rw [resentIds, appended, List.drop_left]
  rw [resent] at acked
  have carriers :
      resubscribed.books.CarriersKnown (added.map UIoTSubInfo.msgId) := by
    intro info listed carries
    have handles : resubscribed.books.subHandles = c.subHandles := kept
    have nodes : resubscribed.books.listSubWaitAck =
      c.listSubWaitAck ++ added := appended
    rw [handles]
    rw [nodes, List.mem_append] at listed
    rcases listed with old | new
    · rw [ids, List.mem_map] at carries
      obtain ⟨later, inRange, same⟩ := carries
      exact absurd same.symm
        (free info old later ((List.mem_range.mp inRange).trans_le fewer))
    · exact known info new
  rw [run_cycle_subHandles resubscribed carriers acked, kept]

/-- In every state a client can get into no two slots are identical, and where
the identifiers that come next are free, subscribing again with an
acknowledgement for every filter sent leaves the slots as they were. -/
theorem run_handlesDistinct_and_resubscriptionKeeps (params : MQTTInitParams)
    (clock : Nat) (labels : List Op) :
    let c := Machine.run Client.step (uiotMqttInit params clock) labels
    c.books.HandlesDistinct ∧ (NextIdsFree c → ResubscriptionKeeps c) := by
  intro c
  have ordered : c.books.HeapOrdered :=
    Machine.run_preserves (fun c : Client => c.books.HeapOrdered)
      Client.step_heapOrdered (uiotMqttInit_heapOrdered params clock) labels
  exact ⟨run_handlesDistinct params clock labels,
    resubscriptionKeeps_of_nextIdsFree c ordered⟩

/-- The steps that connect, subscribe to `"a"` and get the acknowledgement. -/
def subscribed : List Op := subscribing ++ [.cycle (arriving [0x90, 3, 0, 2, 1])]

/-- The case of a client that has subscribed to `"a"`. -/
theorem resubscriptionKeeps_subscribed :
    ResubscriptionKeeps (Machine.run Client.step (uiotMqttInit ⟨2000, true⟩ 0)
      subscribed) :=
  (run_handlesDistinct_and_resubscriptionKeeps ⟨2000, true⟩ 0 subscribed).2
    (by unfold NextIdsFree; decide)

/-- A request for `"b"` waits while 65534 publishes are refused; then `"a"` is
sent again under the identifier of that request, and the acknowledgement
installs `"b"`. -/
theorem resubscription_installsPending :
    ¬∀ labels,
      let c := Machine.run Client.step (uiotMqttInit ⟨2000, true⟩ 0) labels
      c.books.HandlesDistinct ∧ ResubscriptionKeeps c := by
  intro keeps
  let pending := subscribed ++
    [.subInfoProc true, .subscribe textB ⟨.qos1, some 1, 0⟩ unhindered]
  let waiting := Machine.run Client.step (uiotMqttInit ⟨2000, true⟩ 0) pending
  have online : waiting.isConnected = true := by decide
  have around : nextId^[65534] waiting.nextPacketId = 2 := by
    have start : waiting.nextPacketId = 3 := by decide
    rw [start, ← UInt16.toNat_inj, toNat_iterate_nextId (by decide)]
    decide
  have kept := (keeps (pending ++ List.replicate 65534 emptyPublish)).2
  rw [Machine.run_append, run_emptyPublish _ online, around] at kept
  have installed := kept (fun _ => unhindered) [arriving [0x90, 3, 0, 3, 1]]
    ⟨⟨⟨3, [1]⟩, by decide, by decide, by decide⟩, trivial⟩
  have slot := congrFun installed ⟨1, by decide⟩
  revert slot
  decide

end Mqtt
end UIoT
