import UIoT.Mqtt.Acks
import UIoT.Mqtt.StreamFraming

/-!
# Bounds of the acknowledgement decoders

A packet that `_read_mqtt_packet` has put into the read buffer carries its
Remaining Length in the canonical form, so the decoders find the end of the
packet where the reader put it.  They read nothing behind that end.  The
decoder of SUBACK stores one return code more than it is allowed before it
notices.
-/

namespace UIoT
namespace Mqtt

/-! ## Framed packets -/

/-- The fixed header of a packet. -/
structure FixedHeader where
  header : UInt8
  remLen : Nat

/-- The bytes of the packet, the fixed header included. -/
def FixedHeader.packetLen (fixed : FixedHeader) : Nat :=
  1 + (mqttWritePacketRemLen fixed.remLen).length + fixed.remLen

/-- A packet with this fixed header lies at the start of a buffer and, if it has
a body, ends in it, whatever the body holds. -/
structure PacketAt (memory : Memory) (bufLen : Nat) (fixed : FixedHeader) :
    Prop where
  header : memory 0 = fixed.header
  length : memory.slice 1 (mqttWritePacketRemLen fixed.remLen).length =
    mqttWritePacketRemLen fixed.remLen
  small : fixed.remLen ≤ maxRemLen
  fits : 0 < fixed.remLen → fixed.packetLen ≤ bufLen

/-- A write leaves an address before it alone. -/
theorem write_of_lt (memory : Memory) {address offset : Nat}
    (before : address < offset) (bytes : List UInt8) :
    memory.write offset bytes address = memory address := by
  rw [Memory.write, if_neg (Nat.not_le.mpr before)]

/-- What is received from the network is a length four bytes can carry. -/
theorem decodePacketRemLenWithNetRead_le {net rest : NetIn} {remLen : Nat}
    (decoded : decodePacketRemLenWithNetRead net = (rest, .ok remLen)) :
    remLen ≤ maxRemLen := by
  have below : remLen < 1 * 128 ^ maxNoOfRemainingLengthBytes :=
    ContinuationCode.decode_lt Nat.zero_lt_one decoded
  have limit : 1 * 128 ^ maxNoOfRemainingLengthBytes = maxRemLen + 1 := by
    decide
  omega

/-- The body of a packet, or none, is received behind the length. -/
theorem readPacketBody_packetAt (fixed : FixedHeader) {bufLen : Nat}
    {readBuf : Memory} {net : NetIn} (small : fixed.remLen ≤ maxRemLen)
    (header : readBuf 0 = fixed.header) {type : UInt8}
    (ret : (readPacketBody bufLen readBuf net fixed.remLen).ret = .ok type) :
    PacketAt (readPacketBody bufLen readBuf net fixed.remLen).readBuf bufLen
        fixed ∧
      headerType fixed.header = type := by
  let lengthBytes := mqttWritePacketRemLen fixed.remLen
  let withLength := readBuf.write 1 lengthBytes
  have first : withLength 0 = fixed.header :=
    (write_of_lt readBuf Nat.zero_lt_one lengthBytes).trans header
  have length : withLength.slice 1 lengthBytes.length = lengthBytes :=
    Memory.slice_write_same readBuf 1 lengthBytes
  have positive := mqttWritePacketRemLen_length_pos fixed.remLen
  unfold readPacketBody at ret ⊢
  dsimp only at ret ⊢
  split at ret
  · exact absurd ret nofun
  rename_i shorter
  rw [if_neg shorter]
  split at ret
  · -- the packet and its header do not fit
    split at ret <;> exact absurd ret nofun
  rename_i roomy
  rw [if_neg roomy]
  split at ret
  · rename_i nonempty
    rw [if_pos nonempty]
    have fits : fixed.packetLen ≤ bufLen := by
      by_contra long
      exact roomy ⟨nonempty, Nat.lt_of_not_le long⟩
    split at ret
    · exact absurd ret nofun
    · exact absurd ret nofun
    · rename_i rest byte more _
      obtain rfl := Except.ok.inj ret
      have kept : (withLength.write (1 + lengthBytes.length)
          (byte :: more)) 0 = fixed.header :=
        (write_of_lt withLength (by omega) _).trans first
      refine ⟨⟨kept, ?_, small, fun _ => fits⟩, ?_⟩
      · exact (Memory.slice_write_before withLength _ (Nat.le_refl _)).trans
          length
      · exact congrArg headerType kept.symm
  · rename_i empty
    rw [if_neg empty]
    obtain rfl := Except.ok.inj ret
    exact ⟨⟨first, length, small, fun body => absurd body empty⟩,
      congrArg headerType first.symm⟩

/-- Every packet that `_read_mqtt_packet` reports lies in the read buffer with
its type. -/
theorem readMqttPacket_packetAt {bufLen : Nat} {readBuf : Memory}
    {net : NetIn} {type : UInt8}
    (ret : (readMqttPacket bufLen readBuf net).ret = .ok type) :
    ∃ fixed, PacketAt (readMqttPacket bufLen readBuf net).readBuf bufLen
        fixed ∧
      headerType fixed.header = type := by
  unfold readMqttPacket at ret ⊢
  split at ret
  · exact absurd ret nofun
  · exact absurd ret nofun
  · rename_i after header more read
    dsimp only at ret ⊢
    have first : (readBuf.write 0 (header :: more)) 0 = header := rfl
    split at ret
    · exact absurd ret nofun
    · rename_i rest remLen decoded
      have small := decodePacketRemLenWithNetRead_le decoded
      exact ⟨⟨header, remLen⟩,
        readPacketBody_packetAt ⟨header, remLen⟩ small first ret⟩

/-! ## The decoders -/

/-- What the decoders read lies in the packet, and the decoder of SUBACK
answers all of its return codes and stores none of them behind the array. -/
structure AckDecodersInside (memory : Memory) (bufLen : Nat)
    (fixed : FixedHeader) (maxCount : Nat) : Prop where
  ack : ∀ address ∈ (deserializeAckPacket memory bufLen).1.touched,
    address < fixed.packetLen
  unsuback : ∀ address ∈ (deserializeUnsubackPacket memory bufLen).1.touched,
    address < fixed.packetLen
  suback : ∀ address ∈
    (deserializeSubackPacket memory bufLen maxCount).cursor.touched,
      address < fixed.packetLen
  codes : ∀ suback,
    (deserializeSubackPacket memory bufLen maxCount).ret = .ok suback →
      suback.grantedQoSs.length ≤ maxCount ∧
        2 + suback.grantedQoSs.length = fixed.remLen
  stored : (deserializeSubackPacket memory bufLen maxCount).grantedQoSs.length ≤
    maxCount

/-- The addresses read from the start of the buffer. -/
theorem mem_touched_start {count address : Nat} :
    address ∈ (Cursor.start.advance count).touched ↔ address < count := by
  rw [Cursor.mem_touched_advance]
  simp [Cursor.start]

/-- The decoders find the Remaining Length of the packet. -/
theorem PacketAt.decode {memory : Memory} {bufLen : Nat} {fixed : FixedHeader}
    (packetAt : PacketAt memory bufLen fixed) :
    mqttReadPacketRemLenFormBuf memory (Cursor.start.advance 1) =
      (Cursor.start.advance (1 + (mqttWritePacketRemLen fixed.remLen).length),
        .ok fixed.remLen) := by
  rw [mqttReadPacketRemLenFormBuf_canonical packetAt.small packetAt.length,
    Cursor.advance_advance]

/-- The decoder of acknowledgements stays inside the packet. -/
theorem deserializeAckPacket_inside {memory : Memory} {bufLen : Nat}
    {fixed : FixedHeader} (packetAt : PacketAt memory bufLen fixed) :
    ∀ address ∈ (deserializeAckPacket memory bufLen).1.touched,
      address < fixed.packetLen := by
  intro address mem
  unfold deserializeAckPacket at mem
  unfold FixedHeader.packetLen
  split at mem
  · exact absurd mem nofun
  · dsimp only [mqttReadChar, mqttReadUint16T] at mem
    rw [packetAt.decode] at mem
    dsimp only at mem
    simp only [Cursor.advance_advance] at mem
    split at mem
    · rw [mem_touched_start] at mem
      omega
    split at mem
    · split at mem <;> rw [mem_touched_start] at mem <;> omega
    · rw [mem_touched_start] at mem
      omega

theorem deserializeUnsubackPacket_cursor (memory : Memory) (bufLen : Nat) :
    (deserializeUnsubackPacket memory bufLen).1 =
      (deserializeAckPacket memory bufLen).1 := by
  unfold deserializeUnsubackPacket
  split
  · rename_i decoded
    rw [decoded]
  · rename_i decoded
    rw [decoded]
    split <;> rfl

/-- The loop stores return codes until it has one more than it is allowed. -/
theorem grantedLoop_eq (memory : Memory) (maxCount left : Nat)
    (cursor : Cursor) {grantedQoSs : List UInt8}
    (room : grantedQoSs.length ≤ maxCount + 1) :
    grantedLoop memory maxCount left cursor grantedQoSs =
      let stored := min left (maxCount + 1 - grantedQoSs.length)
      (cursor.advance stored,
        grantedQoSs ++ memory.slice cursor.position stored,
        if left ≤ maxCount + 1 - grantedQoSs.length then .successRet
        else .failureRet) := by
  induction left generalizing cursor grantedQoSs with
  | zero => simp [grantedLoop]
  | succ left inductionHypothesis =>
      unfold grantedLoop
      split
      · rename_i full
        have none : maxCount + 1 - grantedQoSs.length = 0 := by omega
        simp [none]
      · rename_i free
        dsimp only [mqttReadChar]
        rw [inductionHypothesis _ (by simp; omega)]
        have stored : min (left + 1) (maxCount + 1 - grantedQoSs.length) =
            1 + min left (maxCount - grantedQoSs.length) := by
          omega
        have remaining : maxCount + 1 - (grantedQoSs.length + 1) =
            maxCount - grantedQoSs.length := by
          omega
        have same : left ≤ maxCount - grantedQoSs.length ↔
            left + 1 ≤ maxCount + 1 - grantedQoSs.length := by
          omega
        simp only [List.length_append, List.length_singleton, remaining,
          Cursor.advance_advance, Cursor.position_advance, stored,
          Memory.slice_add, ← same, List.append_assoc]
        rfl

/-- What the decoder of SUBACK does with a packet of its type that has a packet
identifier. -/
theorem deserializeSubackPacket_eq {memory : Memory} {bufLen : Nat}
    {fixed : FixedHeader} (packetAt : PacketAt memory bufLen fixed)
    (long : 5 ≤ bufLen)
    (type : headerType fixed.header = MessageTypes.suback.code)
    (body : 2 ≤ fixed.remLen) (maxCount : Nat) :
    let start := 1 + (mqttWritePacketRemLen fixed.remLen).length
    let stored := min (fixed.remLen - 2) (maxCount + 1)
    let codes := memory.slice (start + 2) stored
    deserializeSubackPacket memory bufLen maxCount =
      ⟨Cursor.start.advance (start + 2 + stored), codes,
        if fixed.remLen - 2 ≤ maxCount + 1 then
          .ok ⟨uint16At memory start, codes⟩
        else .error .failureRet⟩ := by
  intro start stored codes
  unfold deserializeSubackPacket
  rw [if_neg (Nat.not_lt.mpr long)]
  dsimp only [mqttReadChar]
  rw [show memory Cursor.start.position = fixed.header from packetAt.header,
    if_neg (not_not_intro type), packetAt.decode]
  dsimp only
  rw [if_neg (Nat.not_lt.mpr body)]
  dsimp only [mqttReadUint16T]
  rw [grantedLoop_eq memory maxCount _ _ (Nat.zero_le _)]
  simp only [List.length_nil, Nat.sub_zero, Cursor.advance_advance,
    Cursor.position_advance, List.nil_append]
  by_cases all : fixed.remLen - 2 ≤ maxCount + 1
  · rw [if_pos all, if_pos all]
    simp [Cursor.start, start, stored, codes]
  · rw [if_neg all, if_neg all]
    simp [Cursor.start, start, stored, codes]

/-- Any other packet is refused before a return code is read. -/
theorem deserializeSubackPacket_refused {memory : Memory} {bufLen : Nat}
    {fixed : FixedHeader} (packetAt : PacketAt memory bufLen fixed)
    (maxCount : Nat)
    (other : bufLen < 5 ∨ headerType fixed.header ≠ MessageTypes.suback.code ∨
      fixed.remLen < 2) :
    let result := deserializeSubackPacket memory bufLen maxCount
    (∀ address ∈ result.cursor.touched, address < fixed.packetLen) ∧
      result.grantedQoSs = [] ∧ ∃ error, result.ret = .error error := by
  intro result
  have result_def : result = deserializeSubackPacket memory bufLen maxCount :=
    rfl
  clear_value result
  unfold deserializeSubackPacket at result_def
  have positive := mqttWritePacketRemLen_length_pos fixed.remLen
  unfold FixedHeader.packetLen
  split at result_def
  · subst result_def
    exact ⟨nofun, rfl, _, rfl⟩
  rename_i long
  dsimp only [mqttReadChar] at result_def
  rw [show memory Cursor.start.position = fixed.header from packetAt.header,
    packetAt.decode] at result_def
  split at result_def
  · subst result_def
    refine ⟨fun address mem => ?_, rfl, _, rfl⟩
    rw [mem_touched_start] at mem
    omega
  rename_i type
  dsimp only at result_def
  split at result_def
  · subst result_def
    refine ⟨fun address mem => ?_, rfl, _, rfl⟩
    rw [mem_touched_start] at mem
    omega
  · rename_i body
    rcases other with short | wrong | empty
    · exact absurd short long
    · exact absurd wrong type
    · exact absurd empty body

/-- The decoders stay inside a packet exactly if it is no SUBACK with more
return codes than the array takes. -/
theorem PacketAt.ackDecodersInside_iff {memory : Memory} {bufLen : Nat}
    {fixed : FixedHeader} (packetAt : PacketAt memory bufLen fixed)
    (maxCount : Nat) :
    AckDecodersInside memory bufLen fixed maxCount ↔
      (headerType fixed.header = MessageTypes.suback.code →
        fixed.remLen - 2 ≤ maxCount) := by
  have ack := deserializeAckPacket_inside packetAt
  have unsuback : ∀ address ∈
      (deserializeUnsubackPacket memory bufLen).1.touched,
      address < fixed.packetLen := by
    rw [deserializeUnsubackPacket_cursor]
    exact ack
  by_cases decoded : 5 ≤ bufLen ∧
      headerType fixed.header = MessageTypes.suback.code ∧ 2 ≤ fixed.remLen
  · obtain ⟨long, type, body⟩ := decoded
    have result := deserializeSubackPacket_eq packetAt long type body maxCount
    dsimp only at result
    constructor
    · intro inside _
      have stored := inside.stored
      have codes := inside.codes
      rw [result] at stored codes
      dsimp only at stored codes
      rw [Memory.length_slice] at stored
      omega
    · intro few
      have enough := few type
      have all : fixed.remLen - 2 ≤ maxCount + 1 := Nat.le_succ_of_le enough
      rw [if_pos all, Nat.min_eq_left all] at result
      refine ⟨ack, unsuback, ?_, ?_, ?_⟩
      · intro address mem
        rw [result, mem_touched_start] at mem
        unfold FixedHeader.packetLen
        omega
      · intro suback decoded
        rw [result] at decoded
        obtain rfl := Except.ok.inj decoded
        dsimp only
        rw [Memory.length_slice]
        omega
      · rw [result]
        dsimp only
        rwa [Memory.length_slice]
  · have other : bufLen < 5 ∨
        headerType fixed.header ≠ MessageTypes.suback.code ∨
        fixed.remLen < 2 := by
      by_contra all
      simp only [not_or, Nat.not_lt, ne_eq, not_not] at all
      exact decoded all
    obtain ⟨inside, stored, error, failed⟩ :=
      deserializeSubackPacket_refused packetAt maxCount other
    refine iff_of_true ⟨ack, unsuback, inside, ?_, ?_⟩ ?_
    · intro suback success
      exact absurd (failed.symm.trans success) nofun
    · rw [stored]
      exact Nat.zero_le _
    · intro type
      rcases other with short | wrong | empty
      · have fits := packetAt.fits
        have positive := mqttWritePacketRemLen_length_pos fixed.remLen
        unfold FixedHeader.packetLen at fits
        omega
      · exact absurd type wrong
      · omega

/-- The decoders stay inside every packet the reader reports, whatever its
length and content, exactly if it is no SUBACK with more return codes than the
array takes. -/
theorem ackDecoders_inside_iff {bufLen : Nat} {readBuf : Memory} {net : NetIn}
    {type : UInt8}
    (framed : (readMqttPacket bufLen readBuf net).ret = .ok type) :
    ∃ fixed, PacketAt (readMqttPacket bufLen readBuf net).readBuf bufLen
        fixed ∧
      headerType fixed.header = type ∧
      ∀ maxCount,
        AckDecodersInside (readMqttPacket bufLen readBuf net).readBuf bufLen
            fixed maxCount ↔
          (type = MessageTypes.suback.code → fixed.remLen - 2 ≤ maxCount) := by
  obtain ⟨fixed, packetAt, rfl⟩ := readMqttPacket_packetAt framed
  exact ⟨fixed, packetAt, rfl, packetAt.ackDecodersInside_iff⟩

/-- A SUBACK with two return codes, as it arrives. -/
def subackOfTwo : NetIn where
  stream := [0x90, 4, 0, 1, 0, 0]
  reads := List.replicate 3 (.bytes 6)

/-- The case of a SUBACK with two return codes. -/
theorem ackDecoders_inside_iff_two :
    ∃ fixed, PacketAt
        (readMqttPacket uiotMqttRxBufLen (fun _ => 0) subackOfTwo).readBuf
        uiotMqttRxBufLen fixed ∧
      headerType fixed.header = 9 ∧
      ∀ maxCount,
        AckDecodersInside
            (readMqttPacket uiotMqttRxBufLen (fun _ => 0) subackOfTwo).readBuf
            uiotMqttRxBufLen fixed maxCount ↔
          ((9 : UInt8) = MessageTypes.suback.code →
            fixed.remLen - 2 ≤ maxCount) :=
  have framed : (readMqttPacket uiotMqttRxBufLen (fun _ => 0)
    subackOfTwo).ret = .ok 9 := rfl
  ackDecoders_inside_iff framed

/-- A SUBACK with two return codes is taken for an array of one. -/
theorem suback_storesBehindArray :
    ¬∀ (bufLen : Nat) (readBuf : Memory) (net : NetIn) (type : UInt8)
      (fixed : FixedHeader) (maxCount : Nat),
      (readMqttPacket bufLen readBuf net).ret = .ok type →
        PacketAt (readMqttPacket bufLen readBuf net).readBuf bufLen fixed →
          AckDecodersInside (readMqttPacket bufLen readBuf net).readBuf bufLen
            fixed maxCount := by
  intro all
  have packetAt : PacketAt
      (readMqttPacket uiotMqttRxBufLen (fun _ => 0) subackOfTwo).readBuf
      uiotMqttRxBufLen ⟨0x90, 4⟩ :=
    ⟨rfl, by decide, by decide, fun _ => by decide⟩
  have inside := all _ _ _ 9 _ 1 rfl packetAt
  exact absurd inside.stored (by decide)

end Mqtt
end UIoT
