import UIoT.Mqtt.PacketFormat

/-!
# Decoding an incoming PUBLISH

`deserialize_publish_packet` walks a pointer through the packet that
`_read_mqtt_packet` left in the read buffer.  It is told the size of the
buffer, not of the packet, and checks the topic against the end of the packet
but not the packet identifier that follows it.
-/

namespace UIoT
namespace Mqtt

/-- What `deserialize_publish_packet` hands back.  Pointers into the packet
are offsets from its first byte; the identifier is only written for a QoS
above 0. -/
structure PublishPacket where
  dup : UInt8
  qos : UInt8
  retained : UInt8
  packetId : Option UInt16
  topicName : Nat
  topicNameLen : UInt16
  payload : Nat
  payloadLen : Nat
  deriving DecidableEq, Repr

/-- `_read_string_with_len` -/
def readStringWithLen (memory : Memory) (cursor : Cursor) (enddata : Nat) :
    Cursor × Except IoTError (Nat × UInt16) :=
  if (enddata : Int) - cursor.position > 1 then
    let (stringLen, cursor) := mqttReadUint16T memory cursor
    if stringLen.toNat > uiotMqttRxBufLen then
      (cursor, .error .failureRet)
    else if cursor.position + stringLen.toNat ≤ enddata then
      (cursor.skip stringLen.toNat, .ok (cursor.position, stringLen))
    else
      (cursor, .error .failureRet)
  else
    (cursor, .error .failureRet)

/-- `deserialize_publish_packet` -/
def deserializePublishPacket (memory : Memory) (bufLen : Nat) :
    Cursor × Except IoTError PublishPacket :=
  if 4 > bufLen then
    (.start, .error .errMqttBufferTooShort)
  else
    let (header, cursor) := mqttReadChar memory .start
    if MessageTypes.publish.code ≠ headerType header then
      (cursor, .error .failureRet)
    else
      match mqttReadPacketRemLenFormBuf memory cursor with
      | (cursor, .error ret) => (cursor, .error ret)
      | (cursor, .ok decodedLen) =>
          let enddata := cursor.position + decodedLen
          match readStringWithLen memory cursor enddata with
          | (cursor, .error _) => (cursor, .error .failureRet)
          | (cursor, .ok (topicName, topicNameLen)) =>
              if 0 > (enddata : Int) - cursor.position then
                (cursor, .error .failureRet)
              else
                -- no check that two bytes are left for the identifier
                let (packetId, cursor) :=
                  if headerQos header ≠ 0 then
                    let (identifier, cursor) := mqttReadUint16T memory cursor
                    (some identifier, cursor)
                  else
                    (none, cursor)
                (cursor, .ok
                  { dup := headerDup header
                    qos := headerQos header
                    retained := headerRetained header
                    packetId
                    topicName
                    topicNameLen
                    payload := cursor.position
                    payloadLen := sizeOfPtrDiff enddata cursor.position })

/-! ## Framed packets -/

/-- The buffer starts with a PUBLISH packet as `_read_mqtt_packet` leaves it:
the header byte, the canonical Remaining Length and that many bytes, all inside
the buffer. -/
structure FramedPublish (memory : Memory) (bufLen remLen : Nat) : Prop where
  type_eq : headerType (memory 0) = MessageTypes.publish.code
  remLen_le : remLen ≤ maxRemLen
  canonical :
    memory.slice 1 (mqttWritePacketRemLen remLen).length =
      mqttWritePacketRemLen remLen
  inside : 1 + (mqttWritePacketRemLen remLen).length + remLen ≤ bufLen

/-- Offset of the first byte that the Remaining Length counts. -/
def remStart (remLen : Nat) : Nat := 1 + (mqttWritePacketRemLen remLen).length

/-- Bytes the packet identifier takes. -/
def PublishPacket.idWidth (packet : PublishPacket) : Nat :=
  if packet.qos = 0 then 0 else 2

/-- The reported topic, identifier and payload follow each other from the
first to the last of the `remLen` bytes, and no byte behind the packet was
read. -/
structure PublishPacket.LaidOut
    (packet : PublishPacket) (memory : Memory) (remLen : Nat)
    (touched : List Nat) : Prop where
  topic_eq : packet.topicName = remStart remLen + 2
  identifier_eq :
    packet.packetId =
      if packet.qos = 0 then none
      else some (uint16At memory
        (packet.topicName + packet.topicNameLen.toNat))
  payload_eq :
    packet.payload =
      packet.topicName + packet.topicNameLen.toNat + packet.idWidth
  payloadLen_eq :
    2 + packet.topicNameLen.toNat + packet.idWidth + packet.payloadLen = remLen
  reads : ∀ address ∈ touched, address < remStart remLen + remLen

/-- The topic length field at the head of the `remLen` bytes. -/
def topicLenField (memory : Memory) (remLen : Nat) : Nat :=
  (uint16At memory (remStart remLen)).toNat

/-- Two bytes are left for the identifier behind an accepted topic, or none is
due: the QoS is 0, or the topic is refused because it has no length field, is
longer than the read buffer or runs over the end of the packet. -/
def IdentifierFits (memory : Memory) (remLen : Nat) : Prop :=
  headerQos (memory 0) = 0 ∨
    remLen < 2 ∨
    uiotMqttRxBufLen < topicLenField memory remLen ∨
    remLen < 2 + topicLenField memory remLen ∨
    2 + topicLenField memory remLen + 2 ≤ remLen

/-! ## The decoder on a framed packet -/

theorem mqttReadChar_start (memory : Memory) :
    mqttReadChar memory .start = (memory 0, Cursor.start.advance 1) := rfl

/-- The pointer behind the fixed header. -/
def bodyCursor (remLen : Nat) : Cursor := Cursor.start.advance (remStart remLen)

@[simp] theorem position_bodyCursor (remLen : Nat) :
    (bodyCursor remLen).position = remStart remLen := by
  simp [bodyCursor, Cursor.start]

/-- The pointer behind a topic, before any identifier is read. -/
def topicCursor (memory : Memory) (remLen : Nat) : Cursor :=
  ((bodyCursor remLen).advance 2).skip (topicLenField memory remLen)

@[simp] theorem position_topicCursor (memory : Memory) (remLen : Nat) :
    (topicCursor memory remLen).position =
      remStart remLen + 2 + topicLenField memory remLen := by
  simp [topicCursor]

/-- On the body of a framed packet the topic is accepted exactly when its
length field is there, does not exceed the read buffer and ends inside the
packet. -/
theorem readStringWithLen_body (memory : Memory) (remLen : Nat) :
    readStringWithLen memory (bodyCursor remLen) (remStart remLen + remLen) =
      if remLen < 2 then
        (bodyCursor remLen, .error .failureRet)
      else if uiotMqttRxBufLen < topicLenField memory remLen ∨
          remLen < 2 + topicLenField memory remLen then
        ((bodyCursor remLen).advance 2, .error .failureRet)
      else
        (topicCursor memory remLen,
          .ok (remStart remLen + 2, uint16At memory (remStart remLen))) := by
  unfold readStringWithLen mqttReadUint16T topicCursor topicLenField
  simp only [position_bodyCursor, Cursor.position_advance]
  by_cases short : remLen < 2
  · rw [if_neg (by omega), if_pos short]
  · rw [if_pos (by omega), if_neg short]
    by_cases long :
        uiotMqttRxBufLen < (uint16At memory (remStart remLen)).toNat
    · rw [if_pos long, if_pos (.inl long)]
    · rw [if_neg long]
      by_cases longer : remLen < 2 + (uint16At memory (remStart remLen)).toNat
      · rw [if_neg (by omega), if_pos (.inr longer)]
      · rw [if_pos (by omega), if_neg (by omega)]

/-- The packet reported for an accepted topic. -/
def acceptedPublish (memory : Memory) (remLen : Nat) : PublishPacket :=
  let header := memory 0
  let behindTopic := remStart remLen + 2 + topicLenField memory remLen
  let payload := if headerQos header = 0 then behindTopic else behindTopic + 2
  { dup := headerDup header
    qos := headerQos header
    retained := headerRetained header
    packetId :=
      if headerQos header = 0 then none else some (uint16At memory behindTopic)
    topicName := remStart remLen + 2
    topicNameLen := uint16At memory (remStart remLen)
    payload
    payloadLen := sizeOfPtrDiff (remStart remLen + remLen) payload }

/-- The pointer when the decoder returns an accepted packet. -/
def acceptedCursor (memory : Memory) (remLen : Nat) : Cursor :=
  if headerQos (memory 0) = 0 then topicCursor memory remLen
  else (topicCursor memory remLen).advance 2

/-- The topic of a framed packet is accepted. -/
def TopicAccepted (memory : Memory) (remLen : Nat) : Prop :=
  2 ≤ remLen ∧ topicLenField memory remLen ≤ uiotMqttRxBufLen ∧
    2 + topicLenField memory remLen ≤ remLen

/-- The Remaining Length of a framed packet is decoded as it stands there. -/
theorem FramedPublish.remLen_read
    {memory : Memory} {bufLen remLen : Nat}
    (framed : FramedPublish memory bufLen remLen) :
    mqttReadPacketRemLenFormBuf memory (Cursor.start.advance 1) =
      (bodyCursor remLen, .ok remLen) := by
  rw [mqttReadPacketRemLenFormBuf_canonical framed.remLen_le framed.canonical,
    Cursor.advance_advance]
  rfl

/-- What the decoder answers on a framed packet whose topic is accepted. -/
theorem deserializePublishPacket_accepted
    {memory : Memory} {bufLen remLen : Nat}
    (framed : FramedPublish memory bufLen remLen)
    (accepted : TopicAccepted memory remLen) :
    deserializePublishPacket memory bufLen =
      (acceptedCursor memory remLen, .ok (acceptedPublish memory remLen)) := by
  obtain ⟨two, notLong, inPacket⟩ := accepted
  have lengthByte := mqttWritePacketRemLen_length_pos remLen
  have roomy : ¬4 > bufLen := by
    have := framed.inside
    omega
  have remLenRead := framed.remLen_read
  have stringRead := readStringWithLen_body memory remLen
  rw [if_neg (by omega), if_neg (by omega)] at stringRead
  rw [deserializePublishPacket, mqttReadChar_start, if_neg roomy]
  dsimp only
  rw [if_neg (not_not.mpr framed.type_eq.symm), remLenRead]
  dsimp only
  rw [position_bodyCursor, stringRead]
  dsimp only
  rw [position_topicCursor, if_neg (by omega)]
  by_cases qosZero : headerQos (memory 0) = 0 <;>
    simp [acceptedCursor, acceptedPublish, mqttReadUint16T, qosZero]

/-- The decoder refuses a framed packet whose topic is not accepted. -/
theorem deserializePublishPacket_refused
    {memory : Memory} {bufLen remLen : Nat}
    (framed : FramedPublish memory bufLen remLen)
    (refused : ¬TopicAccepted memory remLen)
    (cursor : Cursor) (packet : PublishPacket) :
    deserializePublishPacket memory bufLen ≠ (cursor, .ok packet) := by
  have remLenRead := framed.remLen_read
  have stringRead : ∃ rest,
      readStringWithLen memory (bodyCursor remLen) (remStart remLen + remLen) =
        (rest, .error .failureRet) := by
    rw [readStringWithLen_body]
    unfold TopicAccepted at refused
    split
    · exact ⟨_, rfl⟩
    · rw [if_pos (by omega)]
      exact ⟨_, rfl⟩
  obtain ⟨rest, stringRead⟩ := stringRead
  rw [deserializePublishPacket, mqttReadChar_start]
  split
  · simp
  · dsimp only
    rw [if_neg (not_not.mpr framed.type_eq.symm), remLenRead]
    dsimp only
    rw [position_bodyCursor, stringRead]
    simp

/-- The bytes an accepted packet was read from. -/
theorem mem_touched_acceptedCursor
    {memory : Memory} {remLen address : Nat} :
    address ∈ (acceptedCursor memory remLen).touched ↔
      address < remStart remLen + 2 ∨
        (headerQos (memory 0) ≠ 0 ∧
          remStart remLen + 2 + topicLenField memory remLen ≤ address ∧
          address < remStart remLen + 2 + topicLenField memory remLen + 2) := by
  have behindHeader :
      address ∈ (topicCursor memory remLen).touched ↔
        address < remStart remLen + 2 := by
    simp only [topicCursor, Cursor.touched_skip, Cursor.mem_touched_advance,
      bodyCursor, Cursor.start, Cursor.position_advance, List.not_mem_nil,
      false_or]
    omega
  unfold acceptedCursor
  split
  · rename_i qosZero
    simp [behindHeader, qosZero]
  · rename_i qosPositive
    simp [Cursor.mem_touched_advance, behindHeader, qosPositive]

/-- For an accepted topic the layout is right exactly when the identifier
fits. -/
theorem acceptedPublish_laidOut_iff
    {memory : Memory} {bufLen remLen : Nat}
    (framed : FramedPublish memory bufLen remLen)
    (accepted : TopicAccepted memory remLen) :
    (acceptedPublish memory remLen).LaidOut memory remLen
        (acceptedCursor memory remLen).touched ↔
      IdentifierFits memory remLen := by
  obtain ⟨two, notLong, inPacket⟩ := accepted
  have lengthBytes := mqttWritePacketRemLen_length_le framed.remLen_le
  have remLenSmall : remLen ≤ 268435455 := framed.remLen_le
  have startSmall : remStart remLen ≤ 5 := by
    unfold remStart
    omega
  constructor
  · intro laidOut
    by_contra tooShort
    -- the identifier is due and at most one byte is left for it
    obtain ⟨qosPositive, unfit⟩ := not_or.mp tooShort
    have overrun : remLen < 2 + topicLenField memory remLen + 2 := by omega
    have outside := laidOut.reads
      (remStart remLen + 2 + topicLenField memory remLen + 1)
      (mem_touched_acceptedCursor.mpr
        (.inr ⟨qosPositive, by omega, by omega⟩))
    omega
  · intro fits
    have room : headerQos (memory 0) = 0 ∨
        2 + topicLenField memory remLen + 2 ≤ remLen := by
      refine fits.imp_right fun cases => ?_
      omega
    refine ⟨rfl, rfl, ?_, ?_, ?_⟩
    · by_cases qosZero : headerQos (memory 0) = 0 <;>
        simp [acceptedPublish, PublishPacket.idWidth, qosZero, topicLenField]
    · change 2 + topicLenField memory remLen + _ + _ = remLen
      by_cases qosZero : headerQos (memory 0) = 0
      · simp only [acceptedPublish, PublishPacket.idWidth, qosZero, if_true]
        rw [sizeOfPtrDiff_of_le (by omega) (by omega)]
        omega
      · have := room.resolve_left qosZero
        simp only [acceptedPublish, PublishPacket.idWidth, qosZero, if_false]
        rw [sizeOfPtrDiff_of_le (by omega) (by omega)]
        omega
    · intro address inside
      rw [mem_touched_acceptedCursor] at inside
      rcases inside with inHead | ⟨qosPositive, -, below⟩
      · omega
      · have := room.resolve_left qosPositive
        omega

/-- The decoder reports a packet laid out inside the framed bytes exactly when
the packet identifier, where one is due, fits behind the topic. -/
theorem deserializePublishPacket_laidOut_iff
    (memory : Memory) (bufLen remLen : Nat)
    (framed : FramedPublish memory bufLen remLen) :
    (∀ cursor packet,
      deserializePublishPacket memory bufLen = (cursor, .ok packet) →
        packet.LaidOut memory remLen cursor.touched) ↔
      IdentifierFits memory remLen := by
  by_cases accepted : TopicAccepted memory remLen
  · rw [← acceptedPublish_laidOut_iff framed accepted,
      deserializePublishPacket_accepted framed accepted]
    constructor
    · exact fun laidOut => laidOut _ _ rfl
    · intro laidOut cursor packet equal
      simp only [Prod.mk.injEq, Except.ok.injEq] at equal
      obtain ⟨rfl, rfl⟩ := equal
      exact laidOut
  · refine iff_of_true ?_ ?_
    · intro cursor packet equal
      exact absurd equal
        (deserializePublishPacket_refused framed accepted cursor packet)
    · unfold TopicAccepted at accepted
      unfold IdentifierFits
      omega

/-- A QoS-1 PUBLISH whose two bytes are an empty topic. -/
def publishWithoutIdentifier : Memory :=
  Memory.write (fun _ => 0) 0 [0x32, 2, 0, 0]

theorem framedPublish_publishWithoutIdentifier :
    FramedPublish publishWithoutIdentifier uiotMqttRxBufLen 2 where
  type_eq := by decide
  remLen_le := by decide
  canonical := by decide
  inside := by decide

/-- The layout theorem at the packet without an identifier. -/
theorem deserializePublishPacket_laidOut_iff_withoutIdentifier :
    (∀ cursor packet,
      deserializePublishPacket publishWithoutIdentifier uiotMqttRxBufLen =
          (cursor, .ok packet) →
        packet.LaidOut publishWithoutIdentifier 2 cursor.touched) ↔
      IdentifierFits publishWithoutIdentifier 2 :=
  deserializePublishPacket_laidOut_iff publishWithoutIdentifier
    uiotMqttRxBufLen 2 framedPublish_publishWithoutIdentifier

/-- The packet without an identifier is framed and decoded, with an identifier
from behind the packet and a payload length that wrapped below zero. -/
theorem publishWithoutIdentifier_overruns :
    ¬∀ (memory : Memory) (bufLen remLen : Nat),
      FramedPublish memory bufLen remLen →
        ∀ cursor packet,
          deserializePublishPacket memory bufLen = (cursor, .ok packet) →
            packet.LaidOut memory remLen cursor.touched := by
  intro always
  have answer :
      deserializePublishPacket publishWithoutIdentifier uiotMqttRxBufLen =
        (⟨6, [0, 1, 2, 3, 4, 5]⟩, .ok
          { dup := 0, qos := 1, retained := 0, packetId := some 0
            topicName := 4, topicNameLen := 0, payload := 6
            payloadLen := 2 ^ 64 - 2 }) := by
    decide
  have laidOut := always publishWithoutIdentifier uiotMqttRxBufLen 2
    framedPublish_publishWithoutIdentifier _ _ answer
  have outside := laidOut.reads 5 (by decide)
  exact absurd outside (by decide)

end Mqtt
end UIoT
