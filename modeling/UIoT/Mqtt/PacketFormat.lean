import UIoT.Defs
import UIoT.Library.ContinuationCode

/-!
# Packet primitives

The fixed header byte, the Remaining Length codec and the reads that move a
pointer through a received packet.  A `Cursor` is such a pointer, as an offset
from the start of the buffer, together with the addresses read through it.
-/

namespace UIoT
namespace Mqtt

/-! ## Fixed header -/

/-- `(header & MQTT_HEADER_TYPE_MASK) >> MQTT_HEADER_TYPE_SHIFT` -/
def headerType (header : UInt8) : UInt8 :=
  (header &&& (0xF0 : UInt8)) >>> (4 : UInt8)

/-- `(header & MQTT_HEADER_DUP_MASK) >> MQTT_HEADER_DUP_SHIFT` -/
def headerDup (header : UInt8) : UInt8 :=
  (header &&& (0x08 : UInt8)) >>> (3 : UInt8)

/-- `(header & MQTT_HEADER_QOS_MASK) >> MQTT_HEADER_QOS_SHIFT`, which can be
the reserved value 3. -/
def headerQos (header : UInt8) : UInt8 :=
  (header &&& (0x06 : UInt8)) >>> (1 : UInt8)

/-- `header & MQTT_HEADER_RETAIN_MASK` -/
def headerRetained (header : UInt8) : UInt8 := header &&& 0x01

/-- `mqtt_init_packet_header`: the enumerator `RESERVED` is refused. -/
def mqttInitPacketHeader
    (messageType : MessageTypes) (qos : QoS) (dup retained : UInt8) :
    Except IoTError UInt8 :=
  if messageType = .reserved then
    .error .errMqttUnknownError
  else
    .ok (((messageType.code <<< (4 : UInt8)) &&& (0xF0 : UInt8)) |||
      ((dup <<< (3 : UInt8)) &&& (0x08 : UInt8)) |||
      ((qos.bits <<< (1 : UInt8)) &&& (0x06 : UInt8)) |||
      (retained &&& (0x01 : UInt8)))

/-! ## Remaining Length -/

/-- `mqtt_write_packet_rem_len`: the bytes written for a `uint32_t` length,
which has at most five groups of seven bits. -/
def mqttWritePacketRemLen (length : Nat) : List UInt8 :=
  ContinuationCode.encode 5 length

/-- `get_mqtt_packet_len`: the buffer size a packet with this remaining length
is taken to need. -/
def getMqttPacketLen (remLen : Nat) : Nat :=
  let remLen := remLen + 1
  if remLen < 128 then remLen + 1
  else if remLen < 16384 then remLen + 2
  else if remLen < 2097151 then remLen + 3
  else remLen + 4

/-- The largest length four bytes can carry. -/
def maxRemLen : Nat := 268435455

theorem mqttWritePacketRemLen_length_pos (length : Nat) :
    0 < (mqttWritePacketRemLen length).length :=
  ContinuationCode.encode_length_pos (by decide) length

/-- A length that fits in four bytes is written in at most four. -/
theorem mqttWritePacketRemLen_eq_encode
    {length : Nat} (small : length ≤ maxRemLen) :
    mqttWritePacketRemLen length =
      ContinuationCode.encode maxNoOfRemainingLengthBytes length :=
  have below : length < 128 ^ maxNoOfRemainingLengthBytes :=
    Nat.lt_of_le_of_lt small (by decide)
  ContinuationCode.encode_eq_of_lt below (by decide) 1

theorem mqttWritePacketRemLen_length_le
    {length : Nat} (small : length ≤ maxRemLen) :
    (mqttWritePacketRemLen length).length ≤ 4 := by
  rw [mqttWritePacketRemLen_eq_encode small]
  exact ContinuationCode.encode_length_le 4 length

/-! ## Reading through a pointer -/

/-- A pointer into a received packet and the addresses read through it, the
latest one last. -/
structure Cursor where
  position : Nat
  touched : List Nat
  deriving DecidableEq, Repr

namespace Cursor

/-- The start of the buffer. -/
def start : Cursor := ⟨0, []⟩

/-- The pointer after reading the next `count` bytes. -/
def advance (cursor : Cursor) (count : Nat) : Cursor where
  position := cursor.position + count
  touched := cursor.touched ++ (List.range count).map (cursor.position + ·)

@[simp] theorem position_advance (cursor : Cursor) (count : Nat) :
    (cursor.advance count).position = cursor.position + count := rfl

/-- The pointer after skipping bytes without reading them. -/
def skip (cursor : Cursor) (count : Nat) : Cursor where
  position := cursor.position + count
  touched := cursor.touched

@[simp] theorem position_skip (cursor : Cursor) (count : Nat) :
    (cursor.skip count).position = cursor.position + count := rfl

@[simp] theorem touched_skip (cursor : Cursor) (count : Nat) :
    (cursor.skip count).touched = cursor.touched := rfl

/-- Reading in two steps touches what reading in one does. -/
theorem advance_advance (cursor : Cursor) (first second : Nat) :
    (cursor.advance first).advance second = cursor.advance (first + second) := by
  simp only [advance, mk.injEq]
  refine ⟨by omega, ?_⟩
  simp [List.range_add, List.map_map, Function.comp_def, Nat.add_assoc]

@[simp] theorem advance_zero (cursor : Cursor) : cursor.advance 0 = cursor := by
  simp [advance]

/-- Where the bytes read by one advance lie. -/
theorem mem_touched_advance {cursor : Cursor} {count address : Nat} :
    address ∈ (cursor.advance count).touched ↔
      address ∈ cursor.touched ∨
        (cursor.position ≤ address ∧ address < cursor.position + count) := by
  simp only [advance, List.mem_append, List.mem_map, List.mem_range]
  refine or_congr_right ⟨?_, fun inside => ⟨address - cursor.position, ?_, ?_⟩⟩
  · rintro ⟨index, below, rfl⟩
    omega
  · omega
  · omega

end Cursor

/-- `mqtt_read_char` -/
def mqttReadChar (memory : Memory) (cursor : Cursor) : UInt8 × Cursor :=
  (memory cursor.position, cursor.advance 1)

/-- The big-endian number in two bytes. -/
def uint16At (memory : Memory) (address : Nat) : UInt16 :=
  (memory (address + 1)).toUInt16 + 256 * (memory address).toUInt16

/-- `mqtt_read_uint16_t` -/
def mqttReadUint16T (memory : Memory) (cursor : Cursor) : UInt16 × Cursor :=
  (uint16At memory cursor.position, cursor.advance 2)

/-- `bufchar` for one byte, as `_decode_packet_rem_len_from_buf_read` calls
it.  It never fails: nothing tells it where the buffer ends. -/
def bufchar (memory : Memory) (cursor : Cursor) :
    Cursor × Except IoTError UInt8 :=
  (cursor.advance 1, .ok (memory cursor.position))

/-- `mqtt_read_packet_rem_len_form_buf`, with the pointer moved past the bytes
it counts in `readBytesLen`. -/
def mqttReadPacketRemLenFormBuf (memory : Memory) (cursor : Cursor) :
    Cursor × Except IoTError Nat :=
  ContinuationCode.decode (bufchar memory) .errMqttPacketReadError
    maxNoOfRemainingLengthBytes 1 0 cursor

/-- The buffer supplies the bytes that lie in it. -/
theorem supplies_bufchar (memory : Memory) (cursor : Cursor) (count : Nat) :
    ContinuationCode.Supplies (bufchar memory) cursor
      (memory.slice cursor.position count) (cursor.advance count) := by
  induction count generalizing cursor with
  | zero => simp [ContinuationCode.Supplies]
  | succ count inductionHypothesis =>
      rw [Memory.slice_succ]
      refine ⟨cursor.advance 1, rfl, ?_⟩
      have others := inductionHypothesis (cursor.advance 1)
      rw [Cursor.advance_advance, Nat.add_comm 1 count] at others
      exact others

/-- Decoding a Remaining Length that lies in the buffer in its canonical
form reads exactly its bytes. -/
theorem mqttReadPacketRemLenFormBuf_canonical
    {memory : Memory} {cursor : Cursor} {length : Nat}
    (small : length ≤ maxRemLen)
    (canonical :
      memory.slice cursor.position (mqttWritePacketRemLen length).length =
        mqttWritePacketRemLen length) :
    mqttReadPacketRemLenFormBuf memory cursor =
      (cursor.advance (mqttWritePacketRemLen length).length, .ok length) := by
  have supplies := supplies_bufchar memory cursor
    (mqttWritePacketRemLen length).length
  rw [canonical] at supplies
  have below : length < 128 ^ maxNoOfRemainingLengthBytes :=
    Nat.lt_of_le_of_lt small (by decide)
  have encoded := mqttWritePacketRemLen_eq_encode small
  rw [encoded] at supplies ⊢
  unfold mqttReadPacketRemLenFormBuf
  rw [ContinuationCode.decode_of_supplies _ below (by decide) (Nat.le_refl _)
    1 0 supplies]
  simp

end Mqtt
end UIoT
