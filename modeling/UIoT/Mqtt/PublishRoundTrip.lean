import UIoT.Mqtt.OutgoingPackets
import UIoT.Mqtt.PublishDecode

/-!
# PUBLISH there and back

What `_serialize_publish_packet` writes, `deserialize_publish_packet` reads
back: the topic, the service level, the flags, the identifier where there is
one, and the payload up to the last byte written.
-/

namespace UIoT
namespace Mqtt

/-! ## Fields in memory -/

/-- A number written as two bytes is read back. -/
theorem uint16At_of_slice {memory : Memory} {address : Nat} {value : UInt16}
    (written : memory.slice address 2 = mqttWriteUint16 value) :
    uint16At memory address = value := by
  have bytes : memory address = (value / 256).toUInt8 ∧
      memory (address + 1) = (value % 256).toUInt8 := by
    simpa [Memory.slice, mqttWriteUint16, List.range_succ] using written
  unfold uint16At
  rw [bytes.1, bytes.2]
  apply UInt16.toNat_inj.mp
  have bound := value.toNat_lt
  simp [UInt16.toNat_add, UInt16.toNat_mul, UInt16.toNat_div, UInt16.toNat_mod]
  omega

/-- A held packet that fits the buffer is framed. -/
theorem HoldsPacket.framedPublish {memory : Memory} {len bufLen : Nat}
    {packet : WirePacket} (holds : HoldsPacket memory len packet)
    (type : headerType packet.header = MessageTypes.publish.code)
    (inside : len ≤ bufLen) :
    memory 0 = packet.header ∧
      FramedPublish memory bufLen packet.body.length ∧
      memory.slice (remStart packet.body.length) packet.body.length =
        packet.body := by
  have length := holds.length_eq
  rw [HoldsPacket, length] at holds
  have whole : packet.bytes =
      [packet.header] ++ (packet.lengthBytes ++ packet.body) := rfl
  rw [whole, slice_append_iff, slice_append_iff] at holds
  obtain ⟨header, lengthBytes, body⟩ := holds
  have first : memory 0 = packet.header := by
    simpa [Memory.slice] using header
  have total := packet.length_bytes
  refine ⟨first, ⟨by rw [first]; exact type, packet.body_le, ?_, ?_⟩, ?_⟩
  · exact lengthBytes
  · change 1 + packet.lengthBytes.length + packet.body.length ≤ bufLen
    omega
  · simpa [remStart, WirePacket.lengthBytes] using body

/-! ## The round trip -/

/-- The decoded packet is the one that was written: topic, service level,
flags, identifier and payload, the last of which ends where the packet does. -/
structure PublishPacket.ReadsBack (packet : PublishPacket) (memory : Memory)
    (len : Nat) (dupFlag : UInt8) (level : QoS) (retainFlag : UInt8)
    (identifier : UInt16) (topic : CString) (bytes : List UInt8) : Prop where
  topicName : memory.slice packet.topicName packet.topicNameLen.toNat =
    topic.bytes
  topicNameLen : packet.topicNameLen.toNat = topic.bytes.length
  qos : packet.qos = level.bits
  dup : packet.dup = dupFlag
  retained : packet.retained = retainFlag
  payload : memory.slice packet.payload packet.payloadLen = bytes
  payloadLen : packet.payloadLen = bytes.length
  packetId : packet.packetId =
    if level = .qos0 then none else some identifier
  spans : packet.payload + packet.payloadLen = len

/-- The topic, the identifier and the payload lie behind each other where the
body of the packet starts. -/
theorem slices_of_publishBody {memory : Memory} {start : Nat} {qos : QoS}
    {packetId : UInt16} {topicName : CString} {payload : List UInt8}
    (short : topicName.bytes.length < 2 ^ 16)
    (body : memory.slice start
      (publishBody qos packetId topicName payload).length =
        publishBody qos packetId topicName payload) :
    let behindTopic := start + 2 + topicName.bytes.length
    (uint16At memory start).toNat = topicName.bytes.length ∧
      memory.slice (start + 2) topicName.bytes.length = topicName.bytes ∧
      (qos ≠ .qos0 → uint16At memory behindTopic = packetId) ∧
      memory.slice (behindTopic + if qos = .qos0 then 0 else 2)
        payload.length = payload := by
  intro behindTopic
  rw [publishBody, List.append_assoc, slice_append_iff, slice_append_iff,
    mqttWriteUtf8String, slice_append_iff, ← mqttWriteUtf8String,
    length_mqttWriteUtf8String, length_mqttWriteUint16] at body
  obtain ⟨⟨field, topic⟩, identifier, rest⟩ := body
  have behind : start + (2 + topicName.bytes.length) = behindTopic := by
    simp only [behindTopic]
    omega
  rw [behind] at identifier rest
  refine ⟨?_, topic, fun acknowledged => ?_, ?_⟩
  · rw [uint16At_of_slice field]
    exact UInt16.toNat_ofNat_of_lt' short
  · rw [if_neg acknowledged] at identifier
    exact uint16At_of_slice identifier
  · by_cases unacknowledged : qos = .qos0
    · rw [if_pos unacknowledged] at rest ⊢
      exact rest
    · rw [if_neg unacknowledged] at rest ⊢
      exact rest

/-- Whatever `_serialize_publish_packet` writes for a topic the client accepts
is decoded to what was written, by a decoder told any buffer size that holds
the packet, and whatever lies behind it. -/
theorem deserializePublishPacket_serialized
    (buf memory : Memory) (bufLen len readLen : Nat) (dup retained : UInt8)
    (qos : QoS) (packetId : UInt16) (topicName : CString)
    (payload : List UInt8)
    (short : topicName.bytes.length ≤ maxSizeOfCloudTopic)
    (dupFlag : dup = 0 ∨ dup = 1) (retainFlag : retained = 0 ∨ retained = 1)
    (inBuffer : payload.length ≤ bufLen) (small : bufLen ≤ 268435455)
    (written : serializePublishPacket buf bufLen dup qos retained packetId
      topicName (some payload) = .ok (memory, len))
    (inside : len ≤ readLen) :
    ∃ cursor packet,
      deserializePublishPacket memory readLen = (cursor, .ok packet) ∧
        packet.ReadsBack memory len dup qos retained packetId topicName
          payload ∧
        ∀ address ∈ cursor.touched, address < len := by
  unfold maxSizeOfCloudTopic at short
  obtain ⟨wirePacket, built, body_eq, holds⟩ :=
    serializePublishPacket_holds small (by omega) written
  obtain ⟨type, level_eq, dup_eq, retain_eq⟩ :=
    fields_of_mqttInitPacketHeader built
  obtain ⟨first, framed, body⟩ := holds.framedPublish type inside
  rw [← first] at level_eq dup_eq retain_eq
  let remLen := wirePacket.body.length
  have len_eq : len = remStart remLen + remLen := by
    rw [holds.length_eq, wirePacket.length_bytes]
    rfl
  rw [body_eq] at body
  obtain ⟨field, topic, identifier, content⟩ :=
    slices_of_publishBody (by omega) body
  rw [← body_eq] at field topic identifier content
  have remLen_eq : remLen = 2 + topicName.bytes.length +
      (if qos = .qos0 then 0 else 2) + payload.length := by
    change wirePacket.body.length = _
    rw [body_eq, publishBody]
    split
    · simp
    · simp only [List.length_append, length_mqttWriteUtf8String,
        length_mqttWriteUint16]
  have remLenSmall : remLen ≤ 268435455 := wirePacket.body_le
  have startSmall : remStart remLen ≤ 5 := by
    have bytes : (mqttWritePacketRemLen remLen).length ≤ 4 :=
      mqttWritePacketRemLen_length_le wirePacket.body_le
    unfold remStart
    omega
  have topicLen : topicLenField memory remLen = topicName.bytes.length := field
  have accepted : TopicAccepted memory remLen := by
    unfold TopicAccepted uiotMqttRxBufLen
    rw [topicLen]
    omega
  have unacknowledged : headerQos (memory 0) = 0 ↔ qos = .qos0 := by
    rw [level_eq]
    cases qos <;> simp [QoS.bits]
  have payloadStart : (acceptedPublish memory remLen).payload =
      remStart remLen + 2 + topicName.bytes.length +
        if qos = .qos0 then 0 else 2 := by
    simp only [acceptedPublish, unacknowledged, topicLen]
    split <;> rfl
  have payloadLen : (acceptedPublish memory remLen).payloadLen =
      payload.length := by
    change sizeOfPtrDiff _ (acceptedPublish memory remLen).payload = _
    rw [payloadStart, sizeOfPtrDiff_of_le (by omega) (by omega)]
    omega
  refine ⟨_, _, deserializePublishPacket_accepted framed accepted, ?_, ?_⟩
  · constructor
    · change memory.slice (remStart remLen + 2)
        (uint16At memory (remStart remLen)).toNat = _
      rw [show (uint16At memory (remStart remLen)).toNat = _ from field]
      exact topic
    · exact field
    · exact level_eq
    · change headerDup (memory 0) = dup
      rw [dup_eq]
      rcases dupFlag with rfl | rfl <;> rfl
    · change headerRetained (memory 0) = retained
      rw [retain_eq]
      rcases retainFlag with rfl | rfl <;> rfl
    · rw [payloadLen, payloadStart]
      exact content
    · exact payloadLen
    · simp only [acceptedPublish, unacknowledged]
      split
      · rfl
      · rename_i acknowledged
        rw [show topicLenField memory wirePacket.body.length = _ from topicLen]
        exact congrArg some (identifier acknowledged)
    · rw [payloadLen, payloadStart, len_eq]
      omega
  · intro address touched
    rw [mem_touched_acceptedCursor, ne_eq, unacknowledged, topicLen] at touched
    rw [len_eq]
    rcases touched with inHead | ⟨acknowledged, -, below⟩
    · change address < remStart remLen + 2 at inHead
      omega
    · rw [if_neg acknowledged] at remLen_eq
      change address < remStart remLen + 2 + _ + 2 at below
      omega

/-- The case of the payload `"1"` on the topic `"a"`. -/
theorem deserializePublishPacket_serialized_a :
    let memory := Memory.write (fun _ => 0) 0 [0x32, 6, 0, 1, 97, 0, 7, 49]
    ∃ cursor packet,
      deserializePublishPacket memory 8 = (cursor, .ok packet) ∧
        packet.ReadsBack memory 8 0 .qos1 0 7 ⟨[97], by decide⟩ [49] ∧
        ∀ address ∈ cursor.touched, address < 8 :=
  deserializePublishPacket_serialized (fun _ => 0) _ 2048 8 8 0 0 .qos1 7
    ⟨[97], by decide⟩ [49] (by decide) (.inl rfl) (.inl rfl)
    (by decide) (by decide) rfl (by decide)

end Mqtt
end UIoT
