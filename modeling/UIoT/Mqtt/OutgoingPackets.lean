import UIoT.Mqtt.Requests
import UIoT.Mqtt.StreamFraming

/-!
# Outgoing packets

Whatever a serialiser puts into the write buffer is one whole packet: a header
byte of its type, the Remaining Length and that many bytes.  The length it
answers is that of the packet.
-/

namespace UIoT
namespace Mqtt

/-! ## Header bytes -/

theorem low_bit_cases : ∀ byte < 256,
    UInt8.ofNat byte &&& 1 = 0 ∨ UInt8.ofNat byte &&& 1 = 1 := by
  decide +kernel

theorem dup_bit_of_low_bit : ∀ byte < 256,
    (UInt8.ofNat byte <<< (3 : UInt8)) &&& (0x08 : UInt8) =
      (UInt8.ofNat byte &&& 1) <<< (3 : UInt8) := by
  decide +kernel

/-- The fields of a header byte are decoded as they were put in. -/
theorem fields_of_bits (messageType : MessageTypes) (qos : QoS)
    {dup retained : UInt8} (dupBit : dup = 0 ∨ dup = 1)
    (retainBit : retained = 0 ∨ retained = 1) :
    let header := ((messageType.code <<< (4 : UInt8)) &&& (0xF0 : UInt8)) |||
      (dup <<< (3 : UInt8)) |||
      ((qos.bits <<< (1 : UInt8)) &&& (0x06 : UInt8)) ||| retained
    headerType header = messageType.code ∧ headerQos header = qos.bits ∧
      headerDup header = dup ∧ headerRetained header = retained := by
  rcases dupBit with rfl | rfl <;> rcases retainBit with rfl | rfl <;>
    cases messageType <;> cases qos <;> decide

/-- The fields of a header byte can be read back. -/
theorem fields_of_mqttInitPacketHeader {messageType : MessageTypes} {qos : QoS}
    {dup retained header : UInt8}
    (built : mqttInitPacketHeader messageType qos dup retained = .ok header) :
    headerType header = messageType.code ∧ headerQos header = qos.bits ∧
      headerDup header = dup &&& 1 ∧ headerRetained header = retained &&& 1 := by
  unfold mqttInitPacketHeader at built
  split at built
  · exact absurd built (by simp)
  obtain rfl := Except.ok.inj built
  have dupBit := dup_bit_of_low_bit dup.toNat dup.toNat_lt
  have dupCases := low_bit_cases dup.toNat dup.toNat_lt
  have retainCases := low_bit_cases retained.toNat retained.toNat_lt
  rw [UInt8.ofNat_toNat] at dupBit dupCases retainCases
  rw [dupBit]
  exact fields_of_bits messageType qos dupCases retainCases

/-- The header byte names a packet type. -/
def WirePacket.HasType (packet : WirePacket) (type : MessageTypes) : Prop :=
  type ≠ .reserved ∧ headerType packet.header = type.code

theorem WirePacket.hasType_of_built {packet : WirePacket}
    {messageType : MessageTypes} {qos : QoS} {dup retained : UInt8}
    (built : mqttInitPacketHeader messageType qos dup retained =
      .ok packet.header) : packet.HasType messageType := by
  refine ⟨?_, (fields_of_mqttInitPacketHeader built).1⟩
  rintro rfl
  simp [mqttInitPacketHeader] at built

/-! ## Packets in the write buffer -/

/-- A slice consists of its parts. -/
theorem slice_append_iff (memory : Memory) (offset : Nat)
    (first second : List UInt8) :
    memory.slice offset (first ++ second).length = first ++ second ↔
      memory.slice offset first.length = first ∧
        memory.slice (offset + first.length) second.length = second := by
  rw [List.length_append, Memory.slice_add]
  constructor
  · intro both
    exact List.append_inj both (by simp)
  · rintro ⟨left, right⟩
    rw [left, right]

/-- The start of the buffer holds the packet, and the length is its length. -/
def HoldsPacket (memory : Memory) (len : Nat) (packet : WirePacket) : Prop :=
  memory.slice 0 len = packet.bytes

theorem HoldsPacket.length_eq {memory : Memory} {len : Nat}
    {packet : WirePacket} (holds : HoldsPacket memory len packet) :
    len = packet.bytes.length := by
  rw [← holds, Memory.length_slice]

/-- What is serialised is a packet if its Remaining Length counts what
follows. -/
theorem holdsPacket_of_serialized {buf memory : Memory} {header : UInt8}
    {remLen len : Nat} {rest : List UInt8}
    (answer : (.ok (serialized buf (packetBytes header remLen rest)) :
      Except IoTError (Memory × Nat)) = .ok (memory, len))
    (counts : remLen = rest.length) (small : rest.length ≤ maxRemLen) :
    ∃ packet : WirePacket, packet.header = header ∧ packet.body = rest ∧
      HoldsPacket memory len packet := by
  subst counts
  let packet : WirePacket := ⟨header, rest, small⟩
  have bytes_eq : packetBytes header rest.length rest = packet.bytes := rfl
  have fits : packet.bytes.length < 2 ^ 32 := by
    have fields : packet.lengthBytes.length ≤ 4 :=
      mqttWritePacketRemLen_length_le small
    have total := packet.length_bytes
    change packet.bytes.length = 1 + _ + rest.length at total
    unfold maxRemLen at small
    omega
  rw [bytes_eq, serialized, Nat.mod_eq_of_lt fits] at answer
  obtain ⟨rfl, rfl⟩ := Prod.mk.inj (Except.ok.inj answer)
  exact ⟨packet, rfl, rfl, Memory.slice_write_same buf 0 packet.bytes⟩

/-- The answer of a serialiser, if it is not an error, holds a packet of the
type with a body of the length. -/
def SerializesTo (type : MessageTypes) (bodyLen : Nat)
    (answer : Except IoTError (Memory × Nat)) : Prop :=
  ∀ memory len, answer = .ok (memory, len) →
    ∃ packet : WirePacket, packet.HasType type ∧
      packet.body.length = bodyLen ∧ HoldsPacket memory len packet

@[simp] theorem length_mqttWriteUint16 (anInt : UInt16) :
    (mqttWriteUint16 anInt).length = 2 := rfl

@[simp] theorem length_mqttWriteUtf8String (string : CString) :
    (mqttWriteUtf8String string).length = 2 + string.bytes.length := by
  simp [mqttWriteUtf8String]

theorem lt_getMqttPacketLen (remLen : Nat) :
    remLen < getMqttPacketLen remLen := by
  unfold getMqttPacketLen
  dsimp only
  split
  · omega
  split
  · omega
  split <;> omega

/-! ## The serialisers -/

/-- What follows the fixed header of a PUBLISH. -/
def publishBody (qos : QoS) (packetId : UInt16) (topicName : CString)
    (payload : List UInt8) : List UInt8 :=
  mqttWriteUtf8String topicName ++
    (if qos = .qos0 then [] else mqttWriteUint16 packetId) ++ payload

/-- The length of the body of a PUBLISH. -/
def publishBodyLen (qos : QoS) (topicName : CString) (payloadLen : Nat) : Nat :=
  2 + topicName.bytes.length + (if qos = .qos0 then 0 else 2) + payloadLen

theorem length_publishBody (qos : QoS) (packetId : UInt16)
    (topicName : CString) (payload : List UInt8) :
    (publishBody qos packetId topicName payload).length =
      publishBodyLen qos topicName payload.length := by
  unfold publishBody publishBodyLen
  split
  · simp
  · simp only [List.length_append, length_mqttWriteUtf8String,
      length_mqttWriteUint16]

/-- Below 4 GiB the length of a PUBLISH is computed without overflow. -/
theorem getPublishPacketLen_eq (qos : QoS) (packetId : UInt16)
    {topicName : CString} {payload : List UInt8}
    (fits : topicName.bytes.length + payload.length + 4 < 2 ^ 32) :
    getPublishPacketLen qos topicName payload.length =
      (publishBody qos packetId topicName payload).length := by
  rw [length_publishBody, getPublishPacketLen, publishBodyLen]
  split <;> omega

/-- A PUBLISH below 4 GiB is put into the buffer as one packet. -/
theorem serializePublishPacket_holds {buf memory : Memory} {bufLen len : Nat}
    {dup retained : UInt8} {qos : QoS} {packetId : UInt16}
    {topicName : CString} {payload : List UInt8}
    (small : bufLen ≤ maxRemLen)
    (fits : topicName.bytes.length + payload.length + 4 < 2 ^ 32)
    (answer : serializePublishPacket buf bufLen dup qos retained packetId
      topicName (some payload) = .ok (memory, len)) :
    ∃ packet : WirePacket,
      mqttInitPacketHeader .publish qos dup retained = .ok packet.header ∧
        packet.body = publishBody qos packetId topicName payload ∧
        HoldsPacket memory len packet := by
  have counts := getPublishPacketLen_eq qos packetId fits
  have below := lt_getMqttPacketLen
    (getPublishPacketLen qos topicName payload.length)
  unfold serializePublishPacket at answer
  dsimp only at answer
  split at answer
  · exact absurd answer (by simp)
  · rename_i roomy
    split at answer
    · exact absurd answer (by simp)
    · rename_i header built
      obtain ⟨packet, rfl, body, holds⟩ :=
        holdsPacket_of_serialized answer counts
          (show (publishBody qos packetId topicName payload).length ≤ _ by
            omega)
      exact ⟨packet, built, body, holds⟩

theorem serializePublishPacket_serializesTo (buf : Memory) (dup : UInt8)
    (qos : QoS) (retained : UInt8) (packetId : UInt16) {topicName : CString}
    {payload : Option (List UInt8)}
    (fits : topicName.bytes.length + (payload.getD []).length + 4 < 2 ^ 32) :
    SerializesTo .publish
      (publishBodyLen qos topicName (payload.getD []).length)
      (serializePublishPacket buf uiotMqttTxBufLen dup qos retained packetId
        topicName payload) := by
  intro memory len answer
  cases payload with
  | none => exact absurd answer (by simp [serializePublishPacket])
  | some payload =>
      obtain ⟨packet, built, body, holds⟩ :=
        serializePublishPacket_holds (by decide) fits answer
      refine ⟨packet, WirePacket.hasType_of_built built, ?_, holds⟩
      rw [body, length_publishBody]

theorem serializePubAckPacket_serializesTo (buf : Memory)
    (packetType : MessageTypes) (packetId : UInt16) :
    SerializesTo packetType 2 (serializePubAckPacket buf uiotMqttTxBufLen
      packetType 0 packetId) := by
  intro memory len answer
  unfold serializePubAckPacket at answer
  dsimp only at answer
  rw [if_neg (by decide)] at answer
  split at answer
  · exact absurd answer (by simp)
  · rename_i header built
    obtain ⟨packet, rfl, body, holds⟩ :=
      holdsPacket_of_serialized answer rfl (by simp [maxRemLen])
    exact ⟨packet, WirePacket.hasType_of_built built, by rw [body]; rfl,
      holds⟩

/-- What follows the fixed header of the SUBSCRIBE for one filter. -/
def subscribeBody (qos : QoS) (packetId : UInt16) (topicFilter : CString) :
    List UInt8 :=
  mqttWriteUint16 packetId ++ (mqttWriteUtf8String topicFilter ++ [qos.bits])

/-- The SUBSCRIBE for one filter is put into the buffer as one packet. -/
theorem subscribePacket_holds {buf memory : Memory} {len : Nat} {qos : QoS}
    {packetId : UInt16} {topicFilter : CString}
    (fits : topicFilter.bytes.length + 5 < 2 ^ 32)
    (answer : subscribePacket qos buf packetId topicFilter =
      .ok (memory, len)) :
    ∃ packet : WirePacket, packet.HasType .subscribe ∧
        packet.body = subscribeBody qos packetId topicFilter ∧
        HoldsPacket memory len packet := by
  have counts :
      getSubscribePacketRemLen (fun _ => topicFilter) 1 [topicFilter] =
        (subscribeBody qos packetId topicFilter).length := by
    simp [getSubscribePacketRemLen, topicFilterAt, subscribeBody]
    omega
  have below := lt_getMqttPacketLen
    (getSubscribePacketRemLen (fun _ => topicFilter) 1 [topicFilter])
  unfold subscribePacket serializeSubscribePacket at answer
  dsimp only at answer
  split at answer
  · exact absurd answer (by simp)
  · rename_i roomy
    have small : (subscribeBody qos packetId topicFilter).length ≤
        maxRemLen := by
      simp only [uiotMqttTxBufLen, maxRemLen] at roomy ⊢
      omega
    split at answer
    · exact absurd answer (by simp)
    · rename_i header built
      have entries :
          subscribeEntries (fun _ => topicFilter) 1 [topicFilter] [qos] =
            mqttWriteUtf8String topicFilter ++ [qos.bits] := by
        simp [subscribeEntries, topicFilterAt]
      rw [entries] at answer
      obtain ⟨packet, rfl, body, holds⟩ :=
        holdsPacket_of_serialized answer counts small
      exact ⟨packet, WirePacket.hasType_of_built built, body, holds⟩

theorem subscribePacket_serializesTo (buf : Memory) (qos : QoS)
    (packetId : UInt16) {topicFilter : CString}
    (fits : topicFilter.bytes.length + 5 < 2 ^ 32) :
    SerializesTo .subscribe (topicFilter.bytes.length + 5)
      (subscribePacket qos buf packetId topicFilter) := by
  intro memory len answer
  obtain ⟨packet, type, body, holds⟩ := subscribePacket_holds fits answer
  refine ⟨packet, type, ?_, holds⟩
  rw [body]
  simp [subscribeBody]
  omega

theorem unsubscribePacket_serializesTo (buf : Memory) (packetId : UInt16)
    {topicFilter : CString} (fits : topicFilter.bytes.length + 5 < 2 ^ 32) :
    SerializesTo .unsubscribe (topicFilter.bytes.length + 4)
      (unsubscribePacket buf packetId topicFilter) := by
  intro memory len answer
  have below := lt_getMqttPacketLen
    (getUnsubscribePacketRemLen (fun _ => topicFilter) 1 [topicFilter])
  have counts :
      getUnsubscribePacketRemLen (fun _ => topicFilter) 1 [topicFilter] =
        (mqttWriteUint16 packetId ++ unsubscribeEntries (fun _ => topicFilter)
          1 [topicFilter]).length := by
    simp [getUnsubscribePacketRemLen, topicFilterAt, unsubscribeEntries]
    omega
  unfold unsubscribePacket serializeUnsubscribePacket at answer
  dsimp only at answer
  split at answer
  · exact absurd answer (by simp)
  · rename_i roomy
    split at answer
    · exact absurd answer (by simp)
    · rename_i header built
      have small : (mqttWriteUint16 packetId ++ unsubscribeEntries
          (fun _ => topicFilter) 1 [topicFilter]).length ≤ maxRemLen := by
        simp only [uiotMqttTxBufLen, maxRemLen] at roomy ⊢
        omega
      obtain ⟨packet, rfl, body, holds⟩ :=
        holdsPacket_of_serialized answer counts small
      refine ⟨packet, WirePacket.hasType_of_built built, ?_, holds⟩
      rw [body]
      simp [unsubscribeEntries, topicFilterAt]
      omega

/-- Connect options for which the length of CONNECT counts its bytes. -/
def MQTTConnectParams.LengthFits (options : MQTTConnectParams) : Prop :=
  (options.mqttVersion = 3 ∨ options.mqttVersion = 4) ∧
    ∀ clientId, options.clientId = some clientId →
      clientId.bytes.length + optionalStringLen options.username +
        optionalStringLen options.password + 14 < 2 ^ 32

theorem length_optionalString (string : Option CString) :
    (optionalString string).length = optionalStringLen string := by
  cases string with
  | none => rfl
  | some text =>
      rw [optionalString, length_mqttWriteUtf8String, optionalStringLen]
      omega

/-- What follows the fixed header of a CONNECT. -/
def connectBody (options : MQTTConnectParams) (clientId : CString) :
    List UInt8 :=
  (if options.mqttVersion = 4 then mqttWriteUtf8String protocolMqtt ++ [4]
    else mqttWriteUtf8String protocolMqIsdp ++ [3]) ++
      [connectFlags options] ++ mqttWriteUint16 options.keepAliveInterval ++
      mqttWriteUtf8String clientId ++ optionalString options.username ++
      optionalString options.password

theorem getPacketConnectRemLen_eq {options : MQTTConnectParams}
    (lengthFits : options.LengthFits) {clientId : CString}
    (present : options.clientId = some clientId) :
    getPacketConnectRemLen options clientId =
      (connectBody options clientId).length := by
  obtain ⟨version, fits⟩ := lengthFits
  have short := fits clientId present
  rcases version with three | four
  · simp [getPacketConnectRemLen, connectBody, three, length_optionalString,
      protocolMqIsdp]
    omega
  · simp [getPacketConnectRemLen, connectBody, four, length_optionalString,
      protocolMqtt]
    omega

/-- The length of the body of a CONNECT, if there is a client identifier. -/
def connectBodyLen (options : MQTTConnectParams) : Nat :=
  (options.clientId.map fun clientId =>
    (connectBody options clientId).length).getD 0

theorem serializeConnectPacket_serializesTo (buf : Memory)
    {options : MQTTConnectParams} (lengthFits : options.LengthFits) :
    SerializesTo .connect (connectBodyLen options)
      (serializeConnectPacket buf uiotMqttTxBufLen options) := by
  intro memory len answer
  unfold serializeConnectPacket at answer
  split at answer
  · exact absurd answer (by simp)
  rename_i clientId present
  have counts := getPacketConnectRemLen_eq lengthFits present
  have below := lt_getMqttPacketLen (getPacketConnectRemLen options clientId)
  split at answer
  · exact absurd answer (by simp)
  dsimp only at answer
  split at answer
  · exact absurd answer (by simp)
  · rename_i roomy
    have small : (connectBody options clientId).length ≤ maxRemLen := by
      simp only [uiotMqttTxBufLen, maxRemLen] at roomy ⊢
      omega
    split at answer
    · exact absurd answer (by simp)
    · rename_i header built
      obtain ⟨packet, rfl, body, holds⟩ :=
        holdsPacket_of_serialized answer counts small
      refine ⟨packet, WirePacket.hasType_of_built built, ?_, holds⟩
      rw [body, connectBodyLen, present]
      rfl

theorem serializePacketWithZeroPayload_serializesTo (buf : Memory)
    (packetType : MessageTypes) :
    SerializesTo packetType 0
      (serializePacketWithZeroPayload buf uiotMqttTxBufLen packetType) := by
  intro memory len answer
  unfold serializePacketWithZeroPayload at answer
  rw [if_neg (by decide)] at answer
  split at answer
  · exact absurd answer (by simp)
  · rename_i header built
    obtain ⟨packet, rfl, body, holds⟩ :=
      holdsPacket_of_serialized answer rfl (by simp)
    exact ⟨packet, WirePacket.hasType_of_built built, by rw [body]; rfl,
      holds⟩

end Mqtt
end UIoT
