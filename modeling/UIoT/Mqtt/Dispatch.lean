import UIoT.Mqtt.Sending

/-!
# Who is handed an incoming message

`_handle_publish_packet` copies the topic of a PUBLISH into an array of 128
bytes, and `_deliver_message` looks for the first slot with a handler whose
filter takes what the array holds.  A long topic is cut, one of 128 bytes is
left without a terminator, a NUL byte ends the topic for one of the two tests
of a filter, and for an empty topic the other test reads the byte in front of
the array.
-/

namespace UIoT
namespace Mqtt

/-! ## Filters that take a topic -/

/-- The filter is the topic, or the walk of `_is_topic_matched` accepts it. -/
def FilterTakes (topicFilter : CString) (topic : List UInt8) : Prop :=
  topicFilter.bytes = topic ∨
    (matchLoop topicFilter.bytes 0 topic).answer = true

/-- The filter does not take the topic, but is what lies in front of a NUL byte
of it, or starts with `+` where the topic is empty. -/
def FilterStrays (topicFilter : CString) (topic : List UInt8) : Prop :=
  ¬FilterTakes topicFilter topic ∧
    (topicFilter = .ofArray topic ∨
      topic = [] ∧ topicFilter.bytes.head? = some plus)

/-- The byte in front of a name that is not empty does not matter. -/
theorem answer_before (curf : List UInt8) (before other next : UInt8)
    (curn : List UInt8) :
    (matchLoop curf before (next :: curn)).answer =
      (matchLoop curf other (next :: curn)).answer := by
  induction curf with
  | nil => rfl
  | cons f curf inductionHypothesis =>
      unfold matchLoop
      split
      · exact inductionHypothesis
      rename_i passes
      split
      · rename_i stops
        have notPlus : f ≠ plus := fun isPlus => passes ⟨isPlus, stops.1⟩
        rw [answer_cons, answer_cons, beq_eq_false_iff_ne.mpr notPlus,
          Bool.false_and, Bool.false_and]
      split
      · rename_i differs
        rw [answer_cons, answer_cons, beq_eq_false_iff_ne.mpr differs.1,
          Bool.false_and, Bool.false_and]
      · rfl

/-- For an empty name it matters to a filter that starts with `+`. -/
theorem answer_before_nil (curf : List UInt8) (before : UInt8) :
    (matchLoop curf before []).answer = true ↔
      (matchLoop curf 0 []).answer = true ∨
        before = slash ∧ curf.head? = some plus := by
  cases curf with
  | nil => exact iff_of_true rfl (.inl rfl)
  | cons f curf =>
      have front : (0 : UInt8) ≠ slash := by decide
      rw [matchLoop, matchLoop, answer_cons, answer_cons,
        beq_eq_false_iff_ne.mpr front, Bool.and_false, Bool.or_false,
        Bool.or_eq_true, Bool.and_eq_true, beq_iff_eq, beq_iff_eq,
        List.head?_cons, Option.some_inj]
      exact or_congr_right and_comm

theorem isTopicEquals_iff (first second : CString) :
    isTopicEquals first second = true ↔ first = second := by
  unfold isTopicEquals
  rw [Bool.and_eq_true, beq_iff_eq, beq_iff_eq]
  constructor
  · exact fun same => CString.ext same.2
  · rintro rfl
    exact ⟨rfl, rfl⟩

/-- A NUL byte ends a string. -/
theorem ofArray_append_zero (topic rest : List UInt8) :
    CString.ofArray (topic ++ 0 :: rest) = .ofArray topic := by
  ext1
  change (topic ++ 0 :: rest).takeWhile (· ≠ 0) = topic.takeWhile (· ≠ 0)
  induction topic with
  | nil => rfl
  | cons byte topic inductionHypothesis =>
      rw [List.cons_append, List.takeWhile_cons, List.takeWhile_cons,
        inductionHypothesis]

theorem ofArray_of_bytes {topicFilter : CString} {topic : List UInt8}
    (same : topicFilter.bytes = topic) :
    CString.ofArray topic = topicFilter := by
  rw [← ofArray_append_zero topic [], ← same, CString.ofArray_terminated]

/-- The test of `_deliver_message` on a topic with a terminator. -/
theorem isDispatched_iff (topicFilter : CString) (before : UInt8)
    (topic rest : List UInt8) {topicLen : UInt16}
    (length : topic.length = topicLen.toNat) :
    isDispatched topicFilter before (topic ++ 0 :: rest) topicLen = true ↔
      FilterTakes topicFilter topic ∨
        FilterStrays topicFilter topic ∧ (topic = [] → before = slash) := by
  have whole : (topic ++ 0 :: rest).take topicLen.toNat = topic := by
    rw [← length]
    exact List.take_left
  unfold isDispatched isTopicMatched FilterStrays
  rw [Bool.or_eq_true, isTopicEquals_iff, ofArray_append_zero, whole]
  constructor
  · rintro (same | matched)
    · by_cases takes : FilterTakes topicFilter topic
      · exact .inl takes
      · refine .inr ⟨⟨takes, .inl same.symm⟩, ?_⟩
        rintro rfl
        exact absurd (.inl (congrArg CString.bytes same).symm) takes
    · cases topic with
      | nil =>
          rcases (answer_before_nil _ _).mp matched with takes | ⟨front, first⟩
          · exact .inl (.inr takes)
          · by_cases takes : FilterTakes topicFilter []
            · exact .inl takes
            · exact .inr ⟨⟨takes, .inr ⟨rfl, first⟩⟩, fun _ => front⟩
      | cons next curn =>
          rw [answer_before _ before 0] at matched
          exact .inl (.inr matched)
  · rintro ((same | matched) | ⟨⟨takes, strays⟩, front⟩)
    · exact .inl (ofArray_of_bytes same)
    · cases topic with
      | nil => exact .inr ((answer_before_nil _ _).mpr (.inl matched))
      | cons next curn => exact .inr (answer_before _ before 0 .. ▸ matched)
    · rcases strays with same | ⟨rfl, first⟩
      · exact .inl same.symm
      · exact .inr ((answer_before_nil _ _).mpr (.inr ⟨front rfl, first⟩))

/-! ## Slots that take a topic -/

/-- The slot has a handler, and its filter is of the kind. -/
def SubTopicHandle.Listens (subHandle : SubTopicHandle)
    (kind : CString → Prop) : Prop :=
  subHandle.messageHandler ≠ none ∧
    ∃ stored, subHandle.topicFilter = some stored ∧ kind stored.text

/-- The slot has a handler and takes the topic. -/
def SubTopicHandle.Takes (topic : List UInt8)
    (subHandle : SubTopicHandle) : Prop :=
  subHandle.Listens (FilterTakes · topic)

/-- The slot has a handler and a filter that strays. -/
def SubTopicHandle.Strays (topic : List UInt8)
    (subHandle : SubTopicHandle) : Prop :=
  subHandle.Listens (FilterStrays · topic)

/-- The slot is the first one of the kind. -/
def FirstSlot (subHandles : Fin maxSubTopics → SubTopicHandle)
    (kind : SubTopicHandle → Prop) (i : Fin maxSubTopics) : Prop :=
  kind (subHandles i) ∧ ∀ j < i, ¬kind (subHandles j)

/-- Both slots have the same handler, and the same data for it. -/
def SubTopicHandle.CallsAs (first second : SubTopicHandle) : Prop :=
  first.messageHandler = second.messageHandler ∧
    first.messageHandlerData = second.messageHandlerData

/-- A slot of the search for a handler. -/
theorem listens_dispatched_iff (subHandle : SubTopicHandle) (before : UInt8)
    (topic rest : List UInt8) {topicLen : UInt16}
    (length : topic.length = topicLen.toNat) :
    subHandle.Listens (fun topicFilter => isDispatched topicFilter before
        (topic ++ 0 :: rest) topicLen = true) ↔
      subHandle.Takes topic ∨
        subHandle.Strays topic ∧ (topic = [] → before = slash) := by
  unfold SubTopicHandle.Takes SubTopicHandle.Strays SubTopicHandle.Listens
  constructor
  · rintro ⟨handled, stored, isStored, dispatched⟩
    rcases (isDispatched_iff _ _ _ _ length).mp dispatched with
      takes | ⟨strays, front⟩
    · exact .inl ⟨handled, stored, isStored, takes⟩
    · exact .inr ⟨⟨handled, stored, isStored, strays⟩, front⟩
  · rintro (⟨handled, stored, isStored, takes⟩ |
      ⟨⟨handled, stored, isStored, strays⟩, front⟩)
    · exact ⟨handled, stored, isStored,
        (isDispatched_iff _ _ _ _ length).mpr (.inl takes)⟩
    · exact ⟨handled, stored, isStored,
        (isDispatched_iff _ _ _ _ length).mpr (.inr ⟨strays, front⟩)⟩

/-- The slot is one the search stops at. -/
def SubTopicHandle.Stops (before : UInt8) (message : MQTTMessage)
    (subHandle : SubTopicHandle) : Prop :=
  subHandle.Listens fun topicFilter =>
    isDispatched topicFilter before message.topic message.topicLen = true

/-- What the search gets from a slot. -/
def SubTopicHandle.found (before : UInt8) (message : MQTTMessage)
    (subHandle : SubTopicHandle) : Option (Nat × Nat) :=
  match subHandle.topicFilter with
  | none => none
  | some stored =>
      if isDispatched stored.text before message.topic message.topicLen then
        subHandle.messageHandler.map (·, subHandle.messageHandlerData)
      else
        none

/-- It gets the handler of a slot it stops at, and nothing from another. -/
theorem found_cases (before : UInt8) (message : MQTTMessage)
    (subHandle : SubTopicHandle) :
    (subHandle.Stops before message ∧ ∃ messageHandler,
      subHandle.messageHandler = some messageHandler ∧
        subHandle.found before message =
          some (messageHandler, subHandle.messageHandlerData)) ∨
      ¬subHandle.Stops before message ∧
        subHandle.found before message = none := by
  unfold SubTopicHandle.Stops SubTopicHandle.Listens SubTopicHandle.found
  cases filter : subHandle.topicFilter with
  | none =>
      refine .inr ⟨?_, rfl⟩
      rintro ⟨-, stored, isStored, -⟩
      cases isStored
  | some stored =>
      dsimp only
      split
      · rename_i dispatched
        cases handler : subHandle.messageHandler with
        | none => exact .inr ⟨fun stops => stops.1 rfl, rfl⟩
        | some messageHandler =>
            exact .inl ⟨⟨Option.some_ne_none _, stored, rfl, dispatched⟩,
              messageHandler, rfl, rfl⟩
      · rename_i refused
        refine .inr ⟨?_, rfl⟩
        rintro ⟨-, other, isOther, dispatched⟩
        cases isOther
        exact refused dispatched

/-- The search finds the handler of the first slot it stops at. -/
theorem findHandler_cases (subHandles : Fin maxSubTopics → SubTopicHandle)
    (before : UInt8) (message : MQTTMessage) :
    (∃ i messageHandler,
      FirstSlot subHandles (SubTopicHandle.Stops before message) i ∧
        (subHandles i).messageHandler = some messageHandler ∧
        findHandler subHandles before message =
          some (messageHandler, (subHandles i).messageHandlerData)) ∨
      (∀ i, ¬(subHandles i).Stops before message) ∧
        findHandler subHandles before message = none := by
  have search : findHandler subHandles before message =
      (List.finRange maxSubTopics).findSome? fun i =>
        (subHandles i).found before message := rfl
  rw [search]
  cases result : (List.finRange maxSubTopics).findSome? fun i =>
      (subHandles i).found before message with
  | none =>
      refine .inr ⟨fun i stops => ?_, rfl⟩
      have nothing := List.findSome?_eq_none_iff.mp result i
        (List.mem_finRange i)
      rcases found_cases before message (subHandles i) with
        ⟨-, messageHandler, -, found⟩ | ⟨passed, -⟩
      · exact absurd (nothing.symm.trans found) (by simp)
      · exact passed stops
  | some call =>
      obtain ⟨passed, i, others, split, found, nothing⟩ :=
        List.findSome?_eq_some_iff.mp result
      have ordered := List.pairwise_lt_finRange maxSubTopics
      rw [split, List.pairwise_append] at ordered
      have earlier : ∀ j < i, j ∈ passed := by
        intro j below
        have mem : j ∈ passed ++ i :: others := split ▸ List.mem_finRange j
        rcases List.mem_append.mp mem with mem | mem
        · exact mem
        rcases List.mem_cons.mp mem with rfl | mem
        · exact absurd below (Fin.lt_irrefl j)
        · have above := (List.pairwise_cons.mp ordered.2.1).1 j mem
          exact absurd below (Fin.lt_asymm above)
      rcases found_cases before message (subHandles i) with
        ⟨stops, messageHandler, handled, whole⟩ | ⟨-, none⟩
      · refine .inl ⟨i, messageHandler, ⟨stops, fun j below stops => ?_⟩,
          handled, found.symm.trans whole⟩
        rcases found_cases before message (subHandles j) with
          ⟨-, other, -, some⟩ | ⟨passes, -⟩
        · exact absurd ((nothing j (earlier j below)).symm.trans some) (by simp)
        · exact passes stops
      · exact absurd (none.symm.trans found) (by simp)

/-! ## The message -/

/-- The topic of the packet in the read buffer. -/
def PublishPacket.topic (packet : PublishPacket) (readBuf : Memory) :
    List UInt8 :=
  readBuf.slice packet.topicName packet.topicNameLen.toNat

/-- The message has the packet and its whole topic, with a terminator. -/
structure MQTTMessage.Whole (message : MQTTMessage) (packet : PublishPacket)
    (topic : List UInt8) : Prop where
  packet_eq : message.packet = packet
  topicLen_eq : message.topicLen.toNat = topic.length
  topic_eq : message.topic.take topic.length = topic
  terminated : message.topic[topic.length]? = some 0

/-- The message `_handle_publish_packet` makes of a packet. -/
def PublishPacket.message (packet : PublishPacket) (readBuf : Memory)
    (behind : List UInt8) : MQTTMessage :=
  ⟨packet, (fixTopic readBuf packet behind).1,
    (fixTopic readBuf packet behind).2⟩

section Message

variable {packet : PublishPacket}

theorem length_topic (packet : PublishPacket) (readBuf : Memory) :
    (packet.topic readBuf).length = packet.topicNameLen.toNat :=
  Memory.length_slice ..

/-- A topic that fits with its terminator is copied whole. -/
theorem message_of_fits (readBuf : Memory) (behind : List UInt8)
    (fits : packet.topicNameLen.toNat < maxSizeOfCloudTopic) :
    ∃ rest, packet.message readBuf behind =
      ⟨packet, packet.topic readBuf ++ 0 :: rest, packet.topicNameLen⟩ := by
  have uncut : ¬packet.topicNameLen.toNat > maxSizeOfCloudTopic :=
    Nat.not_lt.mpr (Nat.le_of_lt fits)
  obtain ⟨room, isRoom⟩ := Nat.exists_eq_add_of_lt fits
  have zeros : maxSizeOfCloudTopic - packet.topicNameLen.toNat = room + 1 := by
    omega
  refine ⟨List.replicate room 0 ++ behind, ?_⟩
  unfold PublishPacket.message fixTopic PublishPacket.topic
  simp only [uncut, if_false, zeros, List.replicate_succ, List.append_assoc,
    List.cons_append]

theorem whole_of_fits (packet : PublishPacket) (topic rest : List UInt8)
    (length : topic.length = packet.topicNameLen.toNat) :
    MQTTMessage.Whole ⟨packet, topic ++ 0 :: rest, packet.topicNameLen⟩
      packet topic where
  packet_eq := rfl
  topicLen_eq := length.symm
  topic_eq := List.take_left
  terminated := by
    change (topic ++ 0 :: rest)[topic.length]? = some 0
    rw [List.getElem?_append_right (Nat.le_refl _), Nat.sub_self]
    rfl

/-- A longer topic is cut, or left without a terminator where none lies behind
the array. -/
theorem fits_of_whole {readBuf : Memory}
    (whole : (packet.message readBuf []).Whole packet (packet.topic readBuf)) :
    packet.topicNameLen.toNat < maxSizeOfCloudTopic := by
  by_contra large
  have length := whole.topicLen_eq
  have terminated := whole.terminated
  rw [length_topic] at length terminated
  unfold PublishPacket.message fixTopic at length terminated
  unfold maxSizeOfCloudTopic at large length terminated
  by_cases cut : packet.topicNameLen.toNat > 128
  · rw [if_pos cut] at length
    have short : (UInt16.ofNat (128 - 1)).toNat = 127 := rfl
    rw [short] at length
    omega
  · have exact128 : packet.topicNameLen.toNat = 128 := by omega
    simp [exact128] at terminated

end Message

/-! ## Dispatch -/

/-- Exactly one callback was called, and for a whole message: the handler of
the first slot that takes the topic, or the event handler if there is none. -/
def Client.Dispatches (c next : Client) (packet : PublishPacket) : Prop :=
  ∃ message : MQTTMessage, message.Whole packet (packet.topic c.readBuf) ∧
    ((∃ i messageHandler,
      FirstSlot c.subHandles (·.Takes (packet.topic c.readBuf)) i ∧
        (c.subHandles i).messageHandler = some messageHandler ∧
        next.deliveries = c.deliveries ++
          [⟨messageHandler, (c.subHandles i).messageHandlerData, message⟩] ∧
        next.events = c.events) ∨
      (∀ i, ¬(c.subHandles i).Takes (packet.topic c.readBuf)) ∧
        next.deliveries = c.deliveries ∧
        next.events = c.events ++ [.publishReceived message])

/-- The topic fits with its terminator, and no slot whose filter strays gets in
front of the one that takes it: the first that strays or takes it takes it, or
has the handler and the data of the first that takes it. -/
structure Client.DispatchesExactly (c : Client) (packet : PublishPacket) :
    Prop where
  fits : packet.topicNameLen.toNat < maxSizeOfCloudTopic
  straight : ∀ i,
    FirstSlot c.subHandles
      (fun subHandle => subHandle.Takes (packet.topic c.readBuf) ∨
        subHandle.Strays (packet.topic c.readBuf)) i →
    ∃ j, FirstSlot c.subHandles (·.Takes (packet.topic c.readBuf)) j ∧
      (c.subHandles j).CallsAs (c.subHandles i)

theorem sendAnswer_deliveries (c : Client) (packetType : MessageTypes)
    (packetId : UInt16) (writes : List WriteOutcome) :
    (sendAnswer c packetType packetId writes).1.deliveries = c.deliveries := by
  unfold sendAnswer
  dsimp only
  split
  · rfl
  · rw [sendMqttPacket_fst]
    rfl

/-- Handling a decoded packet calls back where its message is delivered. -/
theorem handlePublishPacket_calls {c : Client} {packet : PublishPacket}
    (decoded : (deserializePublishPacket c.readBuf uiotMqttRxBufLen).2 =
      .ok packet) (env : CycleEnv) :
    let delivered := deliverMessage c env.beforeTopic
      (packet.message c.readBuf env.behindTopic)
    (handlePublishPacket c env).1.deliveries = delivered.deliveries ∧
      (handlePublishPacket c env).1.events = delivered.events := by
  unfold handlePublishPacket
  rw [decoded]
  dsimp only
  cases packet.packetId with
  | none => exact ⟨rfl, rfl⟩
  | some packetId =>
      exact ⟨sendAnswer_deliveries ..,
        congrArg Books.events (sendAnswer_books ..)⟩

/-- Delivering a message calls the handler that is found, or the event
handler. -/
theorem deliverMessage_calls {c : Client} (installed : c.eventHandler = true)
    (before : UInt8) (message : MQTTMessage) :
    (∃ i messageHandler,
      FirstSlot c.subHandles (SubTopicHandle.Stops before message) i ∧
        (c.subHandles i).messageHandler = some messageHandler ∧
        (deliverMessage c before message).deliveries = c.deliveries ++
          [⟨messageHandler, (c.subHandles i).messageHandlerData, message⟩] ∧
        (deliverMessage c before message).events = c.events) ∨
      (∀ i, ¬(c.subHandles i).Stops before message) ∧
        (deliverMessage c before message).deliveries = c.deliveries ∧
        (deliverMessage c before message).events =
          c.events ++ [.publishReceived message] := by
  unfold deliverMessage
  dsimp only
  rcases findHandler_cases c.subHandles before message with
    ⟨i, messageHandler, first, handled, found⟩ | ⟨none, found⟩
  · rw [show (c.lock .generic).subHandles = c.subHandles from rfl, found]
    exact .inl ⟨i, messageHandler, first, handled, rfl, rfl⟩
  · rw [show (c.lock .generic).subHandles = c.subHandles from rfl, found]
    exact .inr ⟨none, rfl, if_pos installed⟩

section Exactly

variable {c : Client} {packet : PublishPacket}

/-- A dispatched packet was handed out in the message that was made of it. -/
theorem Client.Dispatches.whole (installed : c.eventHandler = true)
    (decoded : (deserializePublishPacket c.readBuf uiotMqttRxBufLen).2 =
      .ok packet) {env : CycleEnv}
    (dispatches : c.Dispatches (handlePublishPacket c env).1 packet) :
    (packet.message c.readBuf env.behindTopic).Whole packet
      (packet.topic c.readBuf) := by
  obtain ⟨message, whole, outcome⟩ := dispatches
  have calls := handlePublishPacket_calls decoded env
  dsimp only at calls
  rw [calls.1, calls.2] at outcome
  rcases deliverMessage_calls installed env.beforeTopic
      (packet.message c.readBuf env.behindTopic) with
    ⟨i, found, -, -, delivered, quiet⟩ | ⟨-, silent, raised⟩
  · rw [delivered, quiet] at outcome
    rcases outcome with ⟨j, other, -, -, same, -⟩ | ⟨-, none, -⟩
    · have whole' := List.append_cancel_left same
      injection whole' with first
      injection first with _ _ message_eq
      exact message_eq ▸ whole
    · exact absurd none (by simp)
  · rw [silent, raised] at outcome
    rcases outcome with ⟨j, other, -, -, some, -⟩ | ⟨-, -, same⟩
    · exact absurd some (by simp)
    · have whole' := List.append_cancel_left same
      injection whole' with first
      injection first with message_eq
      exact message_eq ▸ whole

/-- A message whose topic fits stops the search where a slot takes its topic or
strays. -/
theorem stops_iff (fits : packet.topicNameLen.toNat < maxSizeOfCloudTopic)
    (readBuf : Memory) (behind : List UInt8) (before : UInt8)
    (subHandle : SubTopicHandle) :
    subHandle.Stops before (packet.message readBuf behind) ↔
      subHandle.Takes (packet.topic readBuf) ∨
        subHandle.Strays (packet.topic readBuf) ∧
          (packet.topic readBuf = [] → before = slash) := by
  obtain ⟨rest, made⟩ := message_of_fits readBuf behind fits
  rw [made]
  exact listens_dispatched_iff subHandle before _ rest
    (length_topic packet readBuf)

/-- A slot strays on an empty topic only where the byte in front of it is a
slash, and otherwise whatever that byte is. -/
theorem front_of_stops {topic : List UInt8} {before : UInt8}
    {subHandle : SubTopicHandle}
    (stops : subHandle.Takes topic ∨
      subHandle.Strays topic ∧ (topic = [] → before = slash))
    (passes : ¬subHandle.Takes topic) :
    subHandle.Strays topic ∧ (topic = [] → before = slash) :=
  stops.resolve_left passes

/-- Dispatching is exact under the condition. -/
theorem Client.DispatchesExactly.dispatches
    (exactly : c.DispatchesExactly packet) (installed : c.eventHandler = true)
    (decoded : (deserializePublishPacket c.readBuf uiotMqttRxBufLen).2 =
      .ok packet) (env : CycleEnv) :
    c.Dispatches (handlePublishPacket c env).1 packet := by
  have calls := handlePublishPacket_calls decoded env
  have stops := stops_iff exactly.fits c.readBuf env.behindTopic
    env.beforeTopic
  obtain ⟨rest, made⟩ := message_of_fits c.readBuf env.behindTopic exactly.fits
  have whole := whole_of_fits packet _ rest
    (length_topic packet c.readBuf)
  rw [← made] at whole
  dsimp only at calls
  refine ⟨_, whole, ?_⟩
  rw [calls.1, calls.2]
  rcases deliverMessage_calls installed env.beforeTopic
      (packet.message c.readBuf env.behindTopic) with
    ⟨i, messageHandler, first, handled, delivered, quiet⟩ |
      ⟨none, silent, raised⟩
  · left
    rw [delivered, quiet]
    by_cases takes : (c.subHandles i).Takes (packet.topic c.readBuf)
    · refine ⟨i, messageHandler, ⟨takes, fun j below taken => ?_⟩, handled,
        rfl, rfl⟩
      exact first.2 j below ((stops _).mpr (.inl taken))
    · obtain ⟨strays, front⟩ := front_of_stops ((stops _).mp first.1) takes
      have firstOfBoth : FirstSlot c.subHandles
          (fun subHandle => subHandle.Takes (packet.topic c.readBuf) ∨
            subHandle.Strays (packet.topic c.readBuf)) i := by
        refine ⟨.inr strays, fun j below kind => first.2 j below ?_⟩
        exact (stops _).mpr (kind.imp_right fun strays => ⟨strays, front⟩)
      obtain ⟨j, isFirst, handler, data⟩ := exactly.straight i firstOfBoth
      exact ⟨j, messageHandler, isFirst, handler.trans handled,
        by rw [data], rfl⟩
  · right
    rw [silent, raised]
    exact ⟨fun i takes => none i ((stops _).mpr (.inl takes)), rfl, rfl⟩

/-- Only one slot is the first of a kind. -/
theorem FirstSlot.eq {subHandles : Fin maxSubTopics → SubTopicHandle}
    {kind : SubTopicHandle → Prop} {i j : Fin maxSubTopics}
    (first : FirstSlot subHandles kind i)
    (second : FirstSlot subHandles kind j) : i = j := by
  rcases Nat.lt_trichotomy i.val j.val with below | same | above
  · exact absurd first.1 (second.2 i below)
  · exact Fin.ext same
  · exact absurd second.1 (first.2 j above)

/-- A client that dispatches whatever lies around the array for the topic meets
the condition. -/
theorem dispatchesExactly_of_dispatches (installed : c.eventHandler = true)
    (decoded : (deserializePublishPacket c.readBuf uiotMqttRxBufLen).2 =
      .ok packet) {env : CycleEnv} (front : env.beforeTopic = slash)
    (unterminated : env.behindTopic = [])
    (dispatches : c.Dispatches (handlePublishPacket c env).1 packet) :
    c.DispatchesExactly packet := by
  have whole := dispatches.whole installed decoded
  rw [unterminated] at whole
  have fits := fits_of_whole whole
  refine ⟨fits, fun i first => ?_⟩
  have stops := stops_iff fits c.readBuf env.behindTopic env.beforeTopic
  have calls := handlePublishPacket_calls decoded env
  dsimp only at calls
  have firstStop : FirstSlot c.subHandles (SubTopicHandle.Stops
      env.beforeTopic (packet.message c.readBuf env.behindTopic)) i := by
    refine ⟨(stops _).mpr (first.1.imp_right fun strays =>
      ⟨strays, fun _ => front⟩), fun j below stopped => ?_⟩
    exact first.2 j below (((stops _).mp stopped).imp_right And.left)
  obtain ⟨message, -, outcome⟩ := dispatches
  rw [calls.1, calls.2] at outcome
  rcases deliverMessage_calls installed env.beforeTopic
      (packet.message c.readBuf env.behindTopic) with
    ⟨k, messageHandler, found, handled, delivered, quiet⟩ | ⟨none, -, -⟩
  · obtain rfl := firstStop.eq found
    rw [delivered, quiet] at outcome
    rcases outcome with ⟨j, other, isFirst, otherHandled, same, -⟩ |
      ⟨-, nothing, -⟩
    · have call := List.append_cancel_left same
      injection call with first
      injection first with handler_eq data_eq
      refine ⟨j, isFirst, ?_, data_eq.symm⟩
      rw [otherHandled, handled, handler_eq]
    · exact absurd nothing (by simp)
  · exact absurd firstStop.1 (none i)

/-- A slash lies in front of the array for the topic, and nothing behind it. -/
def slashInFront : CycleEnv where
  net := ⟨[], []⟩
  elapsed := 0
  writes := []
  iteratorAllocated := true
  staleHandle := .zero
  beforeTopic := slash
  behindTopic := []

/-- A decoded PUBLISH is dispatched exactly, whatever lies around the array for
its topic, when the topic fits the array with its terminator and no slot that
strays gets in the way. -/
theorem handlePublishPacket_dispatches_iff (installed : c.eventHandler = true)
    (decoded : (deserializePublishPacket c.readBuf uiotMqttRxBufLen).2 =
      .ok packet) :
    (∀ env, c.Dispatches (handlePublishPacket c env).1 packet) ↔
      c.DispatchesExactly packet := by
  constructor
  · intro dispatches
    have here := dispatches slashInFront
    exact dispatchesExactly_of_dispatches installed decoded rfl rfl here
  · exact fun exactly env => exactly.dispatches installed decoded env

end Exactly

/-- A new client with a PUBLISH in its read buffer: the bytes up to the topic,
and `a` for the topic. -/
def clientWith (header : List UInt8) : Client :=
  { uiotMqttInit ⟨2000, true⟩ 0 with
    readBuf := fun address => header.getD address 97 }

/-- The case of the topic `a`. -/
theorem handlePublishPacket_dispatches_iff_a :
    (∀ env, (clientWith [0x30, 3, 0, 1]).Dispatches
        (handlePublishPacket (clientWith [0x30, 3, 0, 1]) env).1
        ⟨0, 0, 0, none, 4, 1, 5, 0⟩) ↔
      (clientWith [0x30, 3, 0, 1]).DispatchesExactly
        ⟨0, 0, 0, none, 4, 1, 5, 0⟩ :=
  handlePublishPacket_dispatches_iff rfl (by decide +kernel)

/-- A topic of 129 bytes does not reach the event handler whole. -/
theorem longTopic_cut :
    ¬∀ (c : Client) (packet : PublishPacket) (env : CycleEnv),
      c.eventHandler = true →
      (deserializePublishPacket c.readBuf uiotMqttRxBufLen).2 = .ok packet →
      c.Dispatches (handlePublishPacket c env).1 packet := by
  intro all
  let packet : PublishPacket := ⟨0, 0, 0, none, 5, 129, 134, 0⟩
  have decoded : (deserializePublishPacket
      (clientWith [0x30, 0x83, 1, 0, 129]).readBuf uiotMqttRxBufLen).2 =
      .ok packet := by decide +kernel
  have dispatches := all (clientWith [0x30, 0x83, 1, 0, 129]) packet
    slashInFront rfl decoded
  have fits := fits_of_whole (dispatches.whole rfl decoded)
  exact absurd fits (by decide)

end Mqtt
end UIoT
