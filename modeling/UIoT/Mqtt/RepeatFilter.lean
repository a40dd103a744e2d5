import UIoT.Library.HistoryRing
import UIoT.Library.Machine
import UIoT.Mqtt.Dispatch

/-!
# The filter for repeated messages

Built with `MQTT_CHECK_REPEAT_MSG`, the client keeps the identifiers of the
messages it has handed on in an array of 50 and withholds a message whose
identifier is there.  It does not look at the flag that tells a redelivery from
a new message.
-/

namespace UIoT
namespace Mqtt

open HistoryRing (Ring)

/-! ## The code -/

/-- `MQTT_MAX_REPEAT_BUF_LEN` -/
def mqttMaxRepeatBufLen : Nat := 50

/-- `sg_repeat_packet_id_buf` with the static index of
`_add_packet_id_to_repeat_buf`. -/
structure RepeatBuf where
  ids : Fin mqttMaxRepeatBufLen → UInt16
  currentPacketIdCnt : Fin mqttMaxRepeatBufLen

/-- `reset_repeat_packet_id_buffer`, which leaves the index alone. -/
def resetRepeatPacketIdBuffer (buf : RepeatBuf) : RepeatBuf :=
  { buf with ids := fun _ => 0 }

/-- `_get_packet_id_in_repeat_buf` -/
def getPacketIdInRepeatBuf (buf : RepeatBuf) (packetId : UInt16) : Int :=
  if (List.finRange mqttMaxRepeatBufLen).any fun i => packetId == buf.ids i then
    packetId.toNat
  else
    -1

/-- `_add_packet_id_to_repeat_buf` -/
def addPacketIdToRepeatBuf (buf : RepeatBuf) (packetId : UInt16) : RepeatBuf :=
  if getPacketIdInRepeatBuf buf packetId > 0 then
    buf
  else
    { ids := Function.update buf.ids buf.currentPacketIdCnt packetId
      currentPacketIdCnt :=
        ⟨(buf.currentPacketIdCnt + 1) % mqttMaxRepeatBufLen,
          Nat.mod_lt _ (by decide)⟩ }

/-- `_handle_publish_packet`, built with `MQTT_CHECK_REPEAT_MSG`. -/
def handlePublishPacketOnce (c : Client) (buf : RepeatBuf) (env : CycleEnv) :
    (Client × RepeatBuf) × IoTError :=
  match (deserializePublishPacket c.readBuf uiotMqttRxBufLen).2 with
  | .error ret => ((c, buf), ret)
  | .ok packet =>
      let (topic, topicLen) := fixTopic c.readBuf packet env.behindTopic
      let message : MQTTMessage := ⟨packet, topic, topicLen⟩
      match packet.packetId with
      | none => ((deliverMessage c env.beforeTopic message, buf), .successRet)
      | some packetId =>
          let repeatId := getPacketIdInRepeatBuf buf packetId
          let c :=
            if repeatId < 0 then deliverMessage c env.beforeTopic message
            else c
          let buf := addPacketIdToRepeatBuf buf packetId
          let answer := if packet.qos = 1 then MessageTypes.puback else .pubrec
          let (c, ret) := sendAnswer c answer packetId env.writes
          ((c, buf), ret)

/-! ## Watching what arrives -/

/-- A QoS 1 PUBLISH in the read buffer with an identifier that is not zero, and
the message it carries. -/
structure Incoming where
  readBuf : Memory
  env : CycleEnv
  message : Nat
  packet : PublishPacket
  packetId : UInt16
  decoded : (deserializePublishPacket readBuf uiotMqttRxBufLen).2 = .ok packet
  qos_eq : packet.qos = 1
  packetId_eq : packet.packetId = some packetId
  packetId_ne : packetId ≠ 0

/-- A client with its filter, and the messages it has handed on with the
identifiers they had, the last one first. -/
structure RepeatWatch where
  client : Client
  buf : RepeatBuf
  delivered : List (UInt16 × Nat)

namespace RepeatWatch

/-- A client whose filter was reset. -/
def start (c : Client) (buf : RepeatBuf) : RepeatWatch :=
  ⟨c, resetRepeatPacketIdBuffer buf, []⟩

/-- The client and its filter when the packet was handled. -/
def handled (w : RepeatWatch) (incoming : Incoming) : Client × RepeatBuf :=
  (handlePublishPacketOnce { w.client with readBuf := incoming.readBuf } w.buf
    incoming.env).1

/-- The packet reaches no handler. -/
def Withholds (w : RepeatWatch) (incoming : Incoming) : Prop :=
  (w.handled incoming).1.deliveries = w.client.deliveries ∧
    (w.handled incoming).1.events = w.client.events

instance (w : RepeatWatch) (incoming : Incoming) :
    Decidable (w.Withholds incoming) :=
  inferInstanceAs (Decidable (_ ∧ _))

/-- A packet is handled. -/
def step (w : RepeatWatch) (incoming : Incoming) : RepeatWatch where
  client := (w.handled incoming).1
  buf := (w.handled incoming).2
  delivered :=
    if w.Withholds incoming then w.delivered
    else (incoming.packetId, incoming.message) :: w.delivered

/-- The packet brings a message again that was handed on before. -/
def Redelivers (w : RepeatWatch) (incoming : Incoming) : Prop :=
  incoming.packet.dup ≠ 0 ∧ incoming.message ∈ w.delivered.map Prod.snd

/-- Only a packet that brings a message again is withheld. -/
def WithholdsRepeated (w : RepeatWatch) (incoming : Incoming) : Prop :=
  w.Withholds incoming → w.Redelivers incoming

/-- Only a packet that brings a message again has the identifier of one of the
last messages handed on. -/
def ReusesRepeated (w : RepeatWatch) (incoming : Incoming) : Prop :=
  incoming.packetId ∈ (w.delivered.map Prod.fst).take mqttMaxRepeatBufLen →
    w.Redelivers incoming

end RepeatWatch

/-! ## What the filter remembers -/

/-- The filter as a ring of identifiers. -/
def RepeatBuf.ring (buf : RepeatBuf) : Ring UInt16 mqttMaxRepeatBufLen :=
  ⟨buf.ids, buf.currentPacketIdCnt⟩

theorem getPacketIdInRepeatBuf_of_mem {buf : RepeatBuf} {packetId : UInt16}
    (stored : ∃ i, buf.ids i = packetId) :
    getPacketIdInRepeatBuf buf packetId = packetId.toNat := by
  obtain ⟨i, rfl⟩ := stored
  refine if_pos (List.any_eq_true.mpr ⟨i, List.mem_finRange i, ?_⟩)
  exact beq_self_eq_true _

theorem getPacketIdInRepeatBuf_of_not_mem {buf : RepeatBuf} {packetId : UInt16}
    (absent : ¬∃ i, buf.ids i = packetId) :
    getPacketIdInRepeatBuf buf packetId = -1 := by
  refine if_neg fun any => absent ?_
  obtain ⟨i, -, same⟩ := List.any_eq_true.mp any
  exact ⟨i, (eq_of_beq same).symm⟩

/-- An identifier that is not stored is pushed. -/
theorem addPacketIdToRepeatBuf_of_not_mem {buf : RepeatBuf} {packetId : UInt16}
    (absent : ¬∃ i, buf.ids i = packetId) :
    (addPacketIdToRepeatBuf buf packetId).ring = buf.ring.push packetId := by
  unfold addPacketIdToRepeatBuf
  rw [getPacketIdInRepeatBuf_of_not_mem absent, if_neg (by decide)]
  rfl

/-- One that is stored is not stored again. -/
theorem addPacketIdToRepeatBuf_of_mem {buf : RepeatBuf} {packetId : UInt16}
    (stored : ∃ i, buf.ids i = packetId) (nonzero : packetId ≠ 0) :
    addPacketIdToRepeatBuf buf packetId = buf := by
  have positive : packetId.toNat ≠ 0 := fun zero =>
    nonzero (UInt16.toNat_inj.mp zero)
  unfold addPacketIdToRepeatBuf
  rw [getPacketIdInRepeatBuf_of_mem stored]
  exact if_pos (by omega)

/-- What is always so: the callbacks are there, and the filter has the
identifiers of the last messages handed on. -/
structure RepeatWatch.Sound (w : RepeatWatch) : Prop where
  installed : w.client.eventHandler = true
  remembers : w.buf.ring.Remembers 0 (w.delivered.map Prod.fst)

theorem RepeatWatch.start_sound {c : Client} (installed : c.eventHandler = true)
    (buf : RepeatBuf) : (RepeatWatch.start c buf).Sound where
  installed
  remembers := HistoryRing.Ring.remembers_nil fun _ => rfl

section Step

variable {w : RepeatWatch} {incoming : Incoming}

/-- A packet whose identifier is stored changes neither the callbacks that were
called nor the filter. -/
theorem RepeatWatch.handled_of_mem
    (stored : ∃ i, w.buf.ids i = incoming.packetId) :
    (w.handled incoming).1.deliveries = w.client.deliveries ∧
      (w.handled incoming).1.books = w.client.books ∧
      (w.handled incoming).2 = w.buf := by
  have found := getPacketIdInRepeatBuf_of_mem stored
  have kept := addPacketIdToRepeatBuf_of_mem stored incoming.packetId_ne
  unfold handled handlePublishPacketOnce
  rw [incoming.decoded]
  dsimp only
  rw [incoming.packetId_eq]
  dsimp only
  rw [found, kept, if_neg (by omega)]
  exact ⟨sendAnswer_deliveries .., sendAnswer_books .., rfl⟩

/-- A packet whose identifier is not stored is handed on, and its identifier is
stored. -/
theorem RepeatWatch.handled_of_not_mem
    (installed : w.client.eventHandler = true)
    (absent : ¬∃ i, w.buf.ids i = incoming.packetId) :
    ¬w.Withholds incoming ∧
      (w.handled incoming).1.eventHandler = w.client.eventHandler ∧
      (w.handled incoming).2.ring = w.buf.ring.push incoming.packetId := by
  have found := getPacketIdInRepeatBuf_of_not_mem absent
  have pushed := addPacketIdToRepeatBuf_of_not_mem absent
  let c : Client := { w.client with readBuf := incoming.readBuf }
  let message := incoming.packet.message c.readBuf incoming.env.behindTopic
  let delivered := deliverMessage c incoming.env.beforeTopic message
  have handled : ∃ answer, w.handled incoming =
      ((sendAnswer delivered answer incoming.packetId incoming.env.writes).1,
        addPacketIdToRepeatBuf w.buf incoming.packetId) := by
    refine ⟨if incoming.packet.qos = 1 then .puback else .pubrec, ?_⟩
    unfold RepeatWatch.handled handlePublishPacketOnce
    rw [incoming.decoded]
    dsimp only
    rw [incoming.packetId_eq]
    dsimp only
    rw [found, if_pos (by decide)]
    rfl
  obtain ⟨answer, handled⟩ := handled
  have books := sendAnswer_books delivered answer incoming.packetId
    incoming.env.writes
  have events := congrArg Books.events books
  have handler := congrArg Books.eventHandler books
  have deliveries := sendAnswer_deliveries delivered answer incoming.packetId
    incoming.env.writes
  refine ⟨?_, ?_, ?_⟩
  · unfold Withholds
    rw [handled]
    rintro ⟨silent, quiet⟩
    have listens : c.eventHandler = true := installed
    have silent : delivered.deliveries = c.deliveries :=
      deliveries.symm.trans silent
    have quiet : delivered.events = c.events := events.symm.trans quiet
    rcases deliverMessage_calls listens incoming.env.beforeTopic message with
      ⟨i, messageHandler, -, -, called, -⟩ | ⟨-, -, raised⟩
    · exact absurd (called.symm.trans silent) (by simp)
    · exact absurd (raised.symm.trans quiet) (by simp)
  · rw [handled]
    refine handler.trans ?_
    have kept : (deliverMessage c incoming.env.beforeTopic
        message).eventHandler = c.eventHandler := by
      unfold deliverMessage
      dsimp only
      split <;> rfl
    exact kept
  · rw [handled]
    exact pushed

/-- In a sound state a packet is withheld exactly if its identifier is that of
one of the last messages handed on. -/
theorem RepeatWatch.Sound.withholds_iff (sound : w.Sound) :
    w.Withholds incoming ↔
      incoming.packetId ∈
        (w.delivered.map Prod.fst).take mqttMaxRepeatBufLen := by
  rw [← sound.remembers.mem_iff incoming.packetId_ne]
  constructor
  · intro withheld
    by_contra absent
    exact (handled_of_not_mem sound.installed absent).1 withheld
  · intro stored
    obtain ⟨deliveries, books, -⟩ := handled_of_mem stored
    exact ⟨deliveries, congrArg Books.events books⟩

/-- Handling a packet leads from a sound state to a sound state. -/
theorem RepeatWatch.Sound.step (sound : w.Sound) (incoming : Incoming) :
    (w.step incoming).Sound := by
  unfold RepeatWatch.step
  by_cases stored : ∃ i, w.buf.ids i = incoming.packetId
  · obtain ⟨deliveries, books, buf⟩ := handled_of_mem stored
    have withheld : w.Withholds incoming :=
      ⟨deliveries, congrArg Books.events books⟩
    rw [if_pos withheld, buf]
    exact ⟨(congrArg Books.eventHandler books).trans sound.installed,
      sound.remembers⟩
  · obtain ⟨handedOn, handler, pushed⟩ :=
      handled_of_not_mem sound.installed stored
    rw [if_neg handedOn]
    refine ⟨handler.trans sound.installed, ?_⟩
    change (w.handled incoming).2.ring.Remembers 0 _
    rw [pushed]
    exact sound.remembers.push incoming.packetId

end Step

/-! ## Runs -/

/-- From a reset on, only redeliveries are withheld exactly if none but
redeliveries have the identifier of one of the last 50 messages handed on. -/
theorem run_withholdsRepeated_iff {c : Client}
    (installed : c.eventHandler = true)
    (buf : RepeatBuf) (packets : List Incoming) :
    Machine.Along RepeatWatch.step RepeatWatch.WithholdsRepeated
        (.start c buf) packets ↔
      Machine.Along RepeatWatch.step RepeatWatch.ReusesRepeated
        (.start c buf) packets :=
  Machine.Along.iff_of_invariant RepeatWatch.Sound
    (fun _ _ sound => imp_congr_left sound.withholds_iff)
    (fun _ incoming sound _ => sound.step incoming)
    (RepeatWatch.start_sound installed buf) packets

/-- A new client, and the index at the first slot. -/
def freshBuf : RepeatBuf := ⟨fun _ => 0, ⟨0, by decide⟩⟩

/-- A PUBLISH with the topic `a` and the identifier 1, new or sent again. -/
def numberedOne (again : Bool) (message : Nat) : Incoming where
  readBuf := fun address =>
    [if again then 0x3A else 0x32, 5, 0, 1, 97, 0, 1].getD address 0
  env := slashInFront
  message
  packet := ⟨if again then 1 else 0, 1, 0, some 1, 4, 1, 7, 0⟩
  packetId := 1
  decoded := by cases again <;> decide +kernel
  qos_eq := rfl
  packetId_eq := rfl
  packetId_ne := by decide

/-- The case of a message that is sent twice. -/
theorem run_withholdsRepeated_iff_twice :
    Machine.Along RepeatWatch.step RepeatWatch.WithholdsRepeated
        (.start (uiotMqttInit ⟨2000, true⟩ 0) freshBuf)
        [numberedOne false 0, numberedOne true 0] ↔
      Machine.Along RepeatWatch.step RepeatWatch.ReusesRepeated
        (.start (uiotMqttInit ⟨2000, true⟩ 0) freshBuf)
        [numberedOne false 0, numberedOne true 0] :=
  run_withholdsRepeated_iff rfl freshBuf _

/-- A new message with the identifier of one that was acknowledged is
withheld. -/
theorem reusedIdentifier_withheld :
    ¬∀ (c : Client) (buf : RepeatBuf) (packets : List Incoming),
      c.eventHandler = true →
      Machine.Along RepeatWatch.step RepeatWatch.WithholdsRepeated
        (.start c buf) packets := by
  intro all
  have along := all (uiotMqttInit ⟨2000, true⟩ 0) freshBuf
    [numberedOne false 0, numberedOne false 1] rfl
  have second := along.2.1
  have withheld : (RepeatWatch.step (.start (uiotMqttInit ⟨2000, true⟩ 0)
      freshBuf) (numberedOne false 0)).Withholds (numberedOne false 1) := by
    decide +kernel
  exact (second withheld).1 rfl

end Mqtt
end UIoT
