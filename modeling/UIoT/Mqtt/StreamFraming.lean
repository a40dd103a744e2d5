import UIoT.Library.Machine
import UIoT.Mqtt.ReadPacket

/-!
# Framing of the incoming byte stream

The peer sends a sequence of packets as one stream.  A run of
`_read_mqtt_packet` calls stays on packet boundaries exactly as long as the
reads of every call deliver what the reader expects of them: each length byte,
the whole body in one read, and for a discarded body some bytes every time.
-/

namespace UIoT
namespace Mqtt

/-- A packet as its sender puts it on the wire. -/
structure WirePacket where
  header : UInt8
  body : List UInt8
  body_le : body.length ≤ maxRemLen

namespace WirePacket

/-- The Remaining Length field. -/
def lengthBytes (packet : WirePacket) : List UInt8 :=
  mqttWritePacketRemLen packet.body.length

/-- The bytes of the packet. -/
def bytes (packet : WirePacket) : List UInt8 :=
  packet.header :: (packet.lengthBytes ++ packet.body)

theorem length_bytes (packet : WirePacket) :
    packet.bytes.length =
      1 + packet.lengthBytes.length + packet.body.length := by
  simp only [bytes, List.length_cons, List.length_append]
  omega

end WirePacket

/-- The bytes of a sequence of packets. -/
def wire (packets : List WirePacket) : List UInt8 :=
  packets.flatMap WirePacket.bytes

@[simp] theorem wire_nil : wire [] = [] := rfl

@[simp] theorem wire_cons (packet : WirePacket) (packets : List WirePacket) :
    wire (packet :: packets) = packet.bytes ++ wire packets := rfl

/-! ## What the reads of a call deliver -/

/-- At least so many bytes arrive, if they are asked for and sent. -/
def ReadOutcome.Arrives (count : Nat) : ReadOutcome → Prop
  | .bytes most => count ≤ most
  | .failure _ => False

instance ReadOutcome.decidableArrives (count : Nat) :
    (outcome : ReadOutcome) → Decidable (outcome.Arrives count)
  | .bytes most => inferInstanceAs (Decidable (count ≤ most))
  | .failure _ => inferInstanceAs (Decidable False)

/-- The next reads, one byte each, all get their byte. -/
def EachArrives : Nat → List ReadOutcome → Prop
  | 0, _ => True
  | _ + 1, [] => False
  | count + 1, outcome :: reads =>
      outcome.Arrives 1 ∧ EachArrives count reads

instance decidableEachArrives :
    (count : Nat) → (reads : List ReadOutcome) →
      Decidable (EachArrives count reads)
  | 0, _ => inferInstanceAs (Decidable True)
  | _ + 1, [] => inferInstanceAs (Decidable False)
  | count + 1, outcome :: reads =>
      have := decidableEachArrives count reads
      inferInstanceAs (Decidable (outcome.Arrives 1 ∧ EachArrives count reads))

/-- A single read gets this many bytes. -/
def OneArrives (count : Nat) : List ReadOutcome → Prop
  | [] => False
  | outcome :: _ => outcome.Arrives count

instance decidableOneArrives (count : Nat) :
    (reads : List ReadOutcome) → Decidable (OneArrives count reads)
  | [] => inferInstanceAs (Decidable False)
  | outcome :: _ => inferInstanceAs (Decidable (outcome.Arrives count))

/-- Reads in pieces of at most `readBufSize` bytes each get something until
nothing remains. -/
def Drains (readBufSize : Nat) : Nat → List ReadOutcome → Prop
  | remaining, [] => remaining = 0
  | remaining, .bytes count :: reads =>
      remaining = 0 ∨
        (0 < count ∧
          Drains readBufSize (remaining - min count (min readBufSize remaining))
            reads)
  | remaining, .failure _ :: _ => remaining = 0

instance decidableDrains (readBufSize : Nat) :
    (remaining : Nat) → (reads : List ReadOutcome) →
      Decidable (Drains readBufSize remaining reads)
  | remaining, [] => inferInstanceAs (Decidable (remaining = 0))
  | remaining, .bytes count :: reads =>
      have := decidableDrains readBufSize
        (remaining - min count (min readBufSize remaining)) reads
      inferInstanceAs (Decidable (remaining = 0 ∨
        (0 < count ∧
          Drains readBufSize (remaining - min count (min readBufSize remaining))
            reads)))
  | remaining, .failure _ :: _ => inferInstanceAs (Decidable (remaining = 0))

/-- The reads behind the length bytes get the body: in one piece when it is
smaller than the buffer, and drop by drop when it is discarded in pieces. -/
def BodyArrives (readBufSize : Nat) (packet : WirePacket)
    (reads : List ReadOutcome) : Prop :=
  if readBufSize ≤ packet.body.length then
    Drains readBufSize packet.body.length reads
  else
    packet.body = [] ∨ OneArrives packet.body.length reads

instance decidableBodyArrives (readBufSize : Nat) (packet : WirePacket)
    (reads : List ReadOutcome) :
    Decidable (BodyArrives readBufSize packet reads) :=
  inferInstanceAs (Decidable (ite _ _ _))

/-- The reads of one call deliver the next packet, or none of it. -/
def CallDelivers (readBufSize : Nat) :
    List WirePacket → List ReadOutcome → Prop
  | [], _ => True
  | packet :: _, reads =>
      OneArrives 1 reads →
        EachArrives packet.lengthBytes.length reads.tail ∧
          BodyArrives readBufSize packet
            (reads.tail.drop packet.lengthBytes.length)

/-! ## Calls on a framed stream -/

/-- The state between two calls: the packets not read yet, the stream and the
read buffer. -/
structure Framing where
  packets : List WirePacket
  stream : List UInt8
  readBuf : Memory

namespace Framing

variable (readBufSize : Nat)

/-- The next call of `_read_mqtt_packet`, given the outcomes of its reads. -/
def call (state : Framing) (reads : List ReadOutcome) : ReadResult :=
  readMqttPacket readBufSize state.readBuf ⟨state.stream, reads⟩

/-- A call that takes anything from the stream is charged with the next
packet. -/
def step (state : Framing) (reads : List ReadOutcome) : Framing where
  packets :=
    if (state.call readBufSize reads).net.stream = state.stream then
      state.packets
    else
      state.packets.tail
  stream := (state.call readBufSize reads).net.stream
  readBuf := (state.call readBufSize reads).readBuf

/-- The stream stands at the start of the next packet. -/
def Aligned (state : Framing) : Prop := state.stream = wire state.packets

/-- The call answers with the next packet, which the read buffer then holds,
or discards it as too long. -/
def Consumes (packet : WirePacket) (result : ReadResult) : Prop :=
  (result.ret = .ok (headerType packet.header) ∧
      result.readBuf.slice 0 packet.bytes.length = packet.bytes) ∨
    result.ret = .error .errMqttBufferTooShort

/-- The call reports neither a packet nor a discarded one. -/
def ReportsNothing (result : ReadResult) : Prop :=
  (∀ packetType, result.ret ≠ .ok packetType) ∧
    result.ret ≠ .error .errMqttBufferTooShort

/-- The call leaves the stream at the start of a packet: of the next but one
if it answers with or discards the next packet, of the next one if it reports
neither. -/
def CallFramed (state : Framing) (reads : List ReadOutcome) : Prop :=
  let result := state.call readBufSize reads
  (∃ packet rest, state.packets = packet :: rest ∧
      result.net.stream = wire rest ∧ Consumes packet result) ∨
    (result.net.stream = state.stream ∧ ReportsNothing result)

end Framing

/-! ## Reading the length bytes -/

theorem readChar_of_arrives {outcome : ReadOutcome}
    (arrives : outcome.Arrives 1) (byte : UInt8) (stream : List UInt8)
    (reads : List ReadOutcome) :
    NetIn.readChar ⟨byte :: stream, outcome :: reads⟩ =
      (⟨stream, reads⟩, .ok byte) := by
  cases outcome with
  | bytes count =>
      have one : min count 1 = 1 := Nat.min_eq_right arrives
      simp [NetIn.readChar, NetIn.read, ReadOutcome.deliver, one]
  | failure error => exact arrives.elim

/-- A read that gets no byte leaves the stream where it is. -/
theorem readChar_of_not_arrives {reads : List ReadOutcome}
    (missing : ¬OneArrives 1 reads) (stream : List UInt8) :
    ∃ others, NetIn.readChar ⟨stream, reads⟩ =
      (⟨stream, others⟩, .error .failureRet) := by
  cases reads with
  | nil => exact ⟨[], rfl⟩
  | cons outcome reads =>
      cases outcome with
      | bytes count =>
          have none : count = 0 := by
            simpa [OneArrives, ReadOutcome.Arrives] using missing
          exact ⟨reads, by
            simp [NetIn.readChar, NetIn.read, ReadOutcome.deliver, none]⟩
      | failure error => exact ⟨reads, rfl⟩

/-- Reads that all get their byte supply the bytes at the head of the
stream. -/
theorem supplies_readChar {bytes : List UInt8} {reads : List ReadOutcome}
    (arrive : EachArrives bytes.length reads) (stream : List UInt8) :
    ContinuationCode.Supplies NetIn.readChar ⟨bytes ++ stream, reads⟩ bytes
      ⟨stream, reads.drop bytes.length⟩ := by
  induction bytes generalizing reads with
  | nil => rfl
  | cons byte bytes inductionHypothesis =>
      cases reads with
      | nil => exact arrive.elim
      | cons outcome reads =>
          exact ⟨⟨bytes ++ stream, reads⟩,
            readChar_of_arrives arrive.1 byte _ reads,
            inductionHypothesis arrive.2⟩

/-- Where not all reads get their byte, one of them fails and leaves the rest
of the bytes on the stream. -/
theorem supplies_until_failure {bytes : List UInt8} {reads : List ReadOutcome}
    (missing : ¬EachArrives bytes.length reads) (stream : List UInt8) :
    ∃ before after middle others, bytes = before ++ after ∧ after ≠ [] ∧
      ContinuationCode.Supplies NetIn.readChar ⟨bytes ++ stream, reads⟩ before
        middle ∧
      NetIn.readChar middle =
        (⟨after ++ stream, others⟩, .error .failureRet) := by
  induction bytes generalizing reads with
  | nil => exact absurd trivial missing
  | cons byte bytes inductionHypothesis =>
      by_cases first : OneArrives 1 reads
      · cases reads with
        | nil => exact first.elim
        | cons outcome reads =>
            have laterMissing : ¬EachArrives bytes.length reads :=
              fun later => missing ⟨first, later⟩
            obtain ⟨before, after, middle, others, parts, unfinished,
              supplies, fails⟩ := inductionHypothesis laterMissing
            refine ⟨byte :: before, after, middle, others, by simp [parts],
              unfinished, ?_, fails⟩
            exact ⟨_, readChar_of_arrives first byte _ reads, supplies⟩
      · obtain ⟨others, fails⟩ :=
          readChar_of_not_arrives first ((byte :: bytes) ++ stream)
        exact ⟨[], byte :: bytes, _, others, rfl, by simp, rfl, fails⟩

/-- A length is decoded when the bytes it is written in arrive. -/
theorem decodePacketRemLenWithNetRead_written {length : Nat}
    (small : length ≤ maxRemLen) {reads : List ReadOutcome}
    (arrive : EachArrives (mqttWritePacketRemLen length).length reads)
    (stream : List UInt8) :
    decodePacketRemLenWithNetRead
        ⟨mqttWritePacketRemLen length ++ stream, reads⟩ =
      (⟨stream, reads.drop (mqttWritePacketRemLen length).length⟩,
        .ok length) := by
  have supplies := supplies_readChar arrive stream
  have below : length < 128 ^ maxNoOfRemainingLengthBytes :=
    Nat.lt_of_le_of_lt small (by decide)
  rw [mqttWritePacketRemLen_eq_encode small] at supplies ⊢
  unfold decodePacketRemLenWithNetRead
  rw [ContinuationCode.decode_of_supplies _ below (by decide) (Nat.le_refl _)
    1 0 supplies]
  simp

/-- The Remaining Length of a packet is decoded when its bytes arrive. -/
theorem decodePacketRemLen_of_arrives (packet : WirePacket)
    {reads : List ReadOutcome}
    (arrive : EachArrives packet.lengthBytes.length reads)
    (stream : List UInt8) :
    decodePacketRemLenWithNetRead ⟨packet.lengthBytes ++ stream, reads⟩ =
      (⟨stream, reads.drop packet.lengthBytes.length⟩,
        .ok packet.body.length) :=
  decodePacketRemLenWithNetRead_written packet.body_le arrive stream

/-- Otherwise the decoder fails inside the Remaining Length. -/
theorem decodePacketRemLen_of_missing (packet : WirePacket)
    {reads : List ReadOutcome}
    (missing : ¬EachArrives packet.lengthBytes.length reads)
    (stream : List UInt8) :
    ∃ after others, after ≠ [] ∧ after.length ≤ packet.lengthBytes.length ∧
      decodePacketRemLenWithNetRead ⟨packet.lengthBytes ++ stream, reads⟩ =
        (⟨after ++ stream, others⟩, .error .failureRet) := by
  obtain ⟨before, after, middle, others, parts, unfinished, supplies, fails⟩ :=
    supplies_until_failure missing stream
  have encoded : packet.lengthBytes =
      ContinuationCode.encode maxNoOfRemainingLengthBytes packet.body.length :=
    mqttWritePacketRemLen_eq_encode packet.body_le
  refine ⟨after, others, unfinished, ?_, ?_⟩
  · rw [parts, List.length_append]
    omega
  · exact ContinuationCode.decode_of_failure (Nat.le_refl _) 1 0
      (encoded.symm.trans parts) unfinished supplies fails

/-! ## Reading the body -/

/-- The discard loop stops at the end of the body exactly when its reads drain
it. -/
theorem discardLoop_stream {readBufSize remLen : Nat}
    (positive : 0 < readBufSize) (reads : List ReadOutcome)
    {body : List UInt8} (some : body ≠ []) (stream : List UInt8)
    (readBuf : Memory) {total : Nat} (account : total + body.length = remLen) :
    ∃ left, left.length ≤ body.length ∧
      (left = [] ↔ Drains readBufSize body.length reads) ∧
      (discardLoop readBufSize remLen reads (body ++ stream) readBuf total
        (min readBufSize body.length)).1.stream = left ++ stream := by
  have bodyPositive : 0 < body.length := List.length_pos_iff.mpr some
  induction reads generalizing body readBuf total with
  | nil =>
      refine ⟨body, Nat.le_refl _, ?_, rfl⟩
      simp [Drains, some]
  | cons outcome reads inductionHypothesis =>
      cases outcome with
      | failure error =>
          exact ⟨body, Nat.le_refl _, by simp [Drains, some], rfl⟩
      | bytes count =>
          -- the piece this read gets lies inside the body
          have piece :
              ((body ++ stream).take
                (min count (min readBufSize body.length))) =
              body.take (min count (min readBufSize body.length)) := by
            rw [List.take_append_of_le_length (by omega)]
          rcases Nat.eq_zero_or_pos count with rfl | countPositive
          · refine ⟨body, Nat.le_refl _, ?_, ?_⟩
            · simp [Drains, some]
            · simp [discardLoop, ReadOutcome.deliver]
          · obtain ⟨byte, more, got⟩ : ∃ byte more,
                body.take (min count (min readBufSize body.length)) =
                  byte :: more := by
              apply List.exists_cons_of_ne_nil
              rw [← List.length_pos_iff, List.length_take]
              omega
            have gotLength : (byte :: more).length =
                min count (min readBufSize body.length) := by
              rw [← got, List.length_take]
              omega
            have dropped :
                (body ++ stream).drop (byte :: more).length =
                  body.drop (byte :: more).length ++ stream :=
              List.drop_append_of_le_length (by rw [gotLength]; omega)
            have restLength : (body.drop (byte :: more).length).length =
                body.length - (byte :: more).length := List.length_drop
            simp only [discardLoop, ReadOutcome.deliver, piece, got, dropped]
            by_cases finished : total + (byte :: more).length < remLen
            · have restSome : body.drop (byte :: more).length ≠ [] := by
                rw [← List.length_pos_iff]
                omega
              have nextPiece :
                  (if remLen - (total + (byte :: more).length) ≥ readBufSize
                    then readBufSize
                    else remLen - (total + (byte :: more).length)) =
                  min readBufSize
                    (body.drop (byte :: more).length).length := by
                split <;> omega
              have restAccount : total + (byte :: more).length +
                  (body.drop (byte :: more).length).length = remLen := by
                omega
              obtain ⟨left, leftLength, leftNil, streamLeft⟩ :=
                inductionHypothesis restSome
                  (readBuf.write 0 (byte :: more)) restAccount
                  (List.length_pos_iff.mpr restSome)
              refine ⟨left, by omega, ?_, ?_⟩
              · rw [leftNil, restLength, gotLength]
                simp only [Drains]
                constructor
                · exact fun drains => .inr ⟨countPositive, drains⟩
                · rintro (empty | ⟨-, drains⟩)
                  · omega
                  · exact drains
              · rw [if_pos finished, nextPiece]
                exact streamLeft
            · have restNil : body.drop (byte :: more).length = [] := by
                rw [← List.length_eq_zero_iff]
                omega
              refine ⟨[], Nat.zero_le _, ?_, ?_⟩
              · simp only [Drains, true_iff]
                refine .inr ⟨countPositive, ?_⟩
                rw [← gotLength, ← restLength, restNil]
                cases reads with
                | nil => rfl
                | cons outcome reads =>
                    cases outcome with
                    | bytes count => exact .inl rfl
                    | failure error => rfl
              · rw [if_neg finished, restNil]

/-- One read of the whole body: the stream ends up behind the body exactly when
the read gets all of it. -/
theorem read_body (reads : List ReadOutcome) {body : List UInt8}
    (some : body ≠ []) (stream : List UInt8) :
    (OneArrives body.length reads ∧
        (NetIn.read ⟨body ++ stream, reads⟩ body.length) =
          (⟨stream, reads.tail⟩, .ok body)) ∨
      (¬OneArrives body.length reads ∧
        ∃ left got, left ≠ [] ∧ left.length ≤ body.length ∧
          NetIn.read ⟨body ++ stream, reads⟩ body.length =
            (⟨left ++ stream, reads.tail⟩, got)) := by
  cases reads with
  | nil =>
      exact .inr ⟨id, body, .ok [], some, Nat.le_refl _, rfl⟩
  | cons outcome reads =>
      cases outcome with
      | failure error =>
          exact .inr ⟨id, body, .error error, some, Nat.le_refl _, rfl⟩
      | bytes count =>
          by_cases whole : body.length ≤ count
          · left
            refine ⟨whole, ?_⟩
            simp [NetIn.read, ReadOutcome.deliver, Nat.min_eq_right whole]
          · right
            have short : min count body.length = count := by omega
            refine ⟨whole, body.drop count, .ok (body.take count), ?_, ?_, ?_⟩
            · rw [← List.length_pos_iff, List.length_drop]
              omega
            · rw [List.length_drop]
              omega
            · have taken : (body.take count).length = count := by
                rw [List.length_take]
                omega
              simp only [NetIn.read, ReadOutcome.deliver, short,
                List.take_append_of_le_length (Nat.le_of_not_le whole), taken,
                List.drop_append_of_le_length (Nat.le_of_not_le whole),
                List.tail_cons]

/-- The header, length and body written one behind the other. -/
theorem slice_packet (readBuf : Memory) (packet : WirePacket) :
    (((readBuf.write 0 [packet.header]).write 1 packet.lengthBytes).write
        (1 + packet.lengthBytes.length) packet.body).slice 0
          packet.bytes.length = packet.bytes := by
  have header :
      (((readBuf.write 0 [packet.header]).write 1 packet.lengthBytes).write
        (1 + packet.lengthBytes.length) packet.body).slice 0 1 =
          [packet.header] := by
    rw [Memory.slice_write_before _ packet.body (by omega),
      Memory.slice_write_before _ packet.lengthBytes (by omega)]
    exact Memory.slice_write_same readBuf 0 [packet.header]
  have lengthField :
      (((readBuf.write 0 [packet.header]).write 1 packet.lengthBytes).write
        (1 + packet.lengthBytes.length) packet.body).slice 1
          packet.lengthBytes.length = packet.lengthBytes := by
    rw [Memory.slice_write_before _ packet.body (by omega)]
    exact Memory.slice_write_same _ 1 packet.lengthBytes
  rw [packet.length_bytes, Memory.slice_add, Memory.slice_add, Nat.zero_add,
    Nat.zero_add, header, lengthField, Memory.slice_write_same]
  simp [WirePacket.bytes]

/-- Behind the Remaining Length, the reader consumes the body exactly when its
reads get it; otherwise part of the body stays on the stream. -/
theorem readPacketBody_consumes {readBufSize : Nat}
    (positive : 0 < readBufSize) (packet : WirePacket) (readBuf : Memory)
    (reads : List ReadOutcome) (stream : List UInt8) :
    let result := readPacketBody readBufSize
      (readBuf.write 0 [packet.header]) ⟨packet.body ++ stream, reads⟩
      packet.body.length
    ∃ left, left.length ≤ packet.body.length ∧
      result.net.stream = left ++ stream ∧
      (left = [] ↔ BodyArrives readBufSize packet reads) ∧
      (left = [] → Framing.Consumes packet result) := by
  intro result
  by_cases oversized : readBufSize ≤ packet.body.length
  · -- the discard loop
    have some : packet.body ≠ [] := by
      rw [← List.length_pos_iff]
      omega
    obtain ⟨left, leftLength, leftNil, streamLeft⟩ :=
      discardLoop_stream positive reads some stream
        (readBuf.write 0 [packet.header]) (Nat.zero_add packet.body.length)
    rw [Nat.min_eq_left oversized] at streamLeft
    have discarded : result.net.stream = left ++ stream := by
      simp only [result, readPacketBody, ge_iff_le, oversized, if_true]
      exact streamLeft
    have tooShort : result.ret = .error .errMqttBufferTooShort := by
      simp only [result, readPacketBody, ge_iff_le, oversized, if_true]
    refine ⟨left, leftLength, discarded, ?_, fun _ => .inr tooShort⟩
    rw [leftNil, BodyArrives, if_pos oversized]
  have fits : ¬packet.body.length ≥ readBufSize := oversized
  by_cases empty : packet.body = []
  · have written := slice_packet readBuf packet
    rw [empty, Memory.write_nil] at written
    have result_eq : result =
        ⟨⟨stream, reads⟩,
          (readBuf.write 0 [packet.header]).write 1 packet.lengthBytes,
          .ok (headerType packet.header)⟩ := by
      simp only [result, readPacketBody, if_neg fits]
      simp [empty, WirePacket.lengthBytes, Memory.write]
    refine ⟨[], Nat.zero_le _, by rw [result_eq]; rfl, ?_, fun _ => .inl ?_⟩
    · rw [BodyArrives, if_neg oversized]
      exact iff_of_true rfl (.inl empty)
    · rw [result_eq]
      exact ⟨rfl, written⟩
  · have bodyPositive : packet.body.length > 0 := List.length_pos_iff.mpr empty
    have arrives_iff : BodyArrives readBufSize packet reads ↔
        OneArrives packet.body.length reads := by
      rw [BodyArrives, if_neg oversized, or_iff_right empty]
    have written := slice_packet readBuf packet
    rw [arrives_iff]
    rcases read_body reads empty stream with
      ⟨arrives, read⟩ | ⟨missing, left, got, leftSome, leftLength, read⟩
    · refine ⟨[], Nat.zero_le _, ?_, iff_of_true rfl arrives, fun _ => ?_⟩
      all_goals
        obtain ⟨byte, more, body_eq⟩ := List.exists_cons_of_ne_nil empty
        simp only [result, readPacketBody, if_neg fits, read]
      · split
        · rfl
        · rw [body_eq]
          rfl
      · split
        · exact .inr rfl
        · refine .inl ?_
          simp only [body_eq]
          rw [← body_eq]
          refine ⟨?_, written⟩
          simp [Memory.write]
    · refine ⟨left, leftLength, ?_, iff_of_false leftSome missing,
        fun done => absurd done leftSome⟩
      simp only [result, readPacketBody, if_neg fits, read]
      split
      · cases got <;> rfl
      · rcases got with error | _ | ⟨byte, more⟩ <;> rfl

/-! ## Calls -/

namespace Framing

variable {readBufSize : Nat}

/-- A call whose first read gets nothing leaves the stream alone. -/
theorem call_of_nothing (state : Framing) {reads : List ReadOutcome}
    (nothing : state.stream = [] ∨ ¬OneArrives 1 reads) :
    (state.call readBufSize reads).net.stream = state.stream ∧
      ReportsNothing (state.call readBufSize reads) := by
  have read :
      (∃ others, NetIn.read ⟨state.stream, reads⟩ 1 =
        (⟨state.stream, others⟩, .ok [])) ∨
      ∃ others error, NetIn.read ⟨state.stream, reads⟩ 1 =
        (⟨state.stream, others⟩, .error error) := by
    cases reads with
    | nil => exact .inl ⟨[], rfl⟩
    | cons outcome reads =>
        cases outcome with
        | failure error => exact .inr ⟨reads, error, rfl⟩
        | bytes count =>
            refine .inl ⟨reads, ?_⟩
            rcases nothing with atEnd | missing
            · simp [NetIn.read, ReadOutcome.deliver, atEnd]
            · have none : count = 0 := by
                simpa [OneArrives, ReadOutcome.Arrives] using missing
              simp [NetIn.read, ReadOutcome.deliver, none]
  rcases read with ⟨others, read⟩ | ⟨others, error, read⟩ <;>
    simp only [call, readMqttPacket, read, ReportsNothing]
  · simp
  · cases error <;> simp [NetError.ret]

/-- A call whose header byte arrives goes on with the remaining length. -/
theorem call_of_oneArrives (state : Framing) {header : UInt8}
    {behind : List UInt8} (aligned : state.stream = header :: behind)
    {outcome : ReadOutcome} {reads : List ReadOutcome}
    (arrives : OneArrives 1 (outcome :: reads)) :
    state.call readBufSize (outcome :: reads) =
      match decodePacketRemLenWithNetRead ⟨behind, reads⟩ with
      | (net, .error ret) => ⟨net, state.readBuf.write 0 [header], .error ret⟩
      | (net, .ok remLen) =>
          readPacketBody readBufSize (state.readBuf.write 0 [header]) net
            remLen := by
  cases outcome with
  | failure error => exact arrives.elim
  | bytes count =>
      have one : min count 1 = 1 := Nat.min_eq_right arrives
      simp only [call, readMqttPacket, NetIn.read, aligned,
        ReadOutcome.deliver, one]
      rfl

/-- Once its header byte is read, a call consumes the packet exactly when the
length bytes and the body arrive; otherwise it stops inside the packet. -/
theorem call_of_header (positive : 0 < readBufSize) (state : Framing)
    {packet : WirePacket} {rest : List WirePacket}
    (aligned : state.stream = wire (packet :: rest))
    {reads : List ReadOutcome} (header : OneArrives 1 reads) :
    let result := state.call readBufSize reads
    ∃ left, left.length < packet.bytes.length ∧
      result.net.stream = left ++ wire rest ∧
      (left = [] ↔
        EachArrives packet.lengthBytes.length reads.tail ∧
          BodyArrives readBufSize packet
            (reads.tail.drop packet.lengthBytes.length)) ∧
      (left = [] → Consumes packet result) := by
  intro result
  cases reads with
  | nil => exact header.elim
  | cons outcome reads =>
      rw [wire_cons, WirePacket.bytes, List.cons_append,
        List.append_assoc] at aligned
      have bytesLength := packet.length_bytes
      have result_eq : result = _ :=
        state.call_of_oneArrives aligned header
      by_cases arrive : EachArrives packet.lengthBytes.length reads
      · rw [decodePacketRemLen_of_arrives packet arrive] at result_eq
        obtain ⟨left, leftLength, streamLeft, leftNil, consumes⟩ :=
          readPacketBody_consumes positive packet state.readBuf
            (reads.drop packet.lengthBytes.length) (wire rest)
        rw [result_eq]
        refine ⟨left, by omega, streamLeft, ?_, consumes⟩
        rw [leftNil]
        exact (and_iff_right arrive).symm
      · obtain ⟨after, others, unfinished, afterLength, decoded⟩ :=
          decodePacketRemLen_of_missing packet arrive
            (packet.body ++ wire rest)
        rw [decoded] at result_eq
        have someLeft : after ++ packet.body ≠ [] := by simp [unfinished]
        rw [result_eq]
        refine ⟨after ++ packet.body, ?_, by simp, ?_, ?_⟩
        · rw [List.length_append]
          omega
        · exact iff_of_false someLeft fun delivers => arrive delivers.1
        · exact fun done => absurd done someLeft

/-- A call on a framed stream stays on packet boundaries exactly when its
reads deliver the next packet or none of it. -/
theorem callFramed_iff (positive : 0 < readBufSize) (state : Framing)
    (aligned : state.Aligned) (reads : List ReadOutcome) :
    state.CallFramed readBufSize reads ↔
      CallDelivers readBufSize state.packets reads := by
  have aligned : state.stream = wire state.packets := aligned
  cases packets : state.packets with
  | nil =>
      have atEnd : state.stream = [] := by rw [aligned, packets, wire_nil]
      exact iff_of_true (.inr (state.call_of_nothing (.inl atEnd))) trivial
  | cons packet rest =>
      rw [packets] at aligned
      by_cases header : OneArrives 1 reads
      · obtain ⟨left, leftLength, streamLeft, leftNil, consumes⟩ :=
          state.call_of_header positive aligned header
        simp only [CallDelivers, header, true_imp_iff, ← leftNil]
        constructor
        · rintro (⟨next, others, packets', consumed, -⟩ | ⟨unmoved, -⟩)
          · obtain ⟨rfl, rfl⟩ := List.cons.inj (packets.symm.trans packets')
            exact List.append_left_eq_self.mp (streamLeft.symm.trans consumed)
          · have lengths := congrArg List.length
              (streamLeft.symm.trans (unmoved.trans aligned))
            simp only [wire_cons, List.length_append] at lengths
            omega
        · intro done
          refine .inl ⟨packet, rest, packets, ?_, consumes done⟩
          rw [streamLeft, done, List.nil_append]
      · exact iff_of_true (.inr (state.call_of_nothing (.inr header)))
          fun arrives => absurd arrives header

/-- A framed call leads to the start of a packet. -/
theorem aligned_step (state : Framing) (aligned : state.Aligned)
    (reads : List ReadOutcome) (framed : state.CallFramed readBufSize reads) :
    (state.step readBufSize reads).Aligned := by
  rcases framed with ⟨packet, rest, packets, consumed, -⟩ | ⟨unmoved, -⟩
  · have moved :
        (state.call readBufSize reads).net.stream ≠ state.stream := by
      intro unmoved
      have aligned : state.stream = wire state.packets := aligned
      have lengths := congrArg List.length
        (consumed.symm.trans (unmoved.trans aligned))
      have bytesLength := packet.length_bytes
      rw [packets, wire_cons, List.length_append] at lengths
      omega
    simp only [Aligned, step, if_neg moved, packets, List.tail_cons]
    exact consumed
  · simp only [Aligned, step, if_pos unmoved]
    exact unmoved.trans aligned

end Framing

/-- A run of calls stays on packet boundaries exactly when the reads of every
call deliver the packet that is next, or none of it.  The reader treats a body
read that returns too early as the whole body, where the loop discarding
oversized packets sums up what its reads get. -/
theorem readMqttPacket_framed_iff
    {readBufSize : Nat} (positive : 0 < readBufSize)
    (packets : List WirePacket) (readBuf : Memory)
    (calls : List (List ReadOutcome)) :
    let start : Framing := ⟨packets, wire packets, readBuf⟩
    Machine.Along (Framing.step readBufSize)
        (Framing.CallFramed readBufSize) start calls ↔
      Machine.Along (Framing.step readBufSize)
        (fun state reads => CallDelivers readBufSize state.packets reads)
        start calls := by
  intro start
  refine Machine.Along.iff_of_invariant Framing.Aligned ?_ ?_ ?_ calls
  · exact fun state reads aligned =>
      state.callFramed_iff positive aligned reads
  · exact fun state reads aligned framed =>
      state.aligned_step aligned reads framed
  · exact rfl

/-- A packet too long for a small buffer, discarded in two pieces, and the
packet behind it. -/
theorem readMqttPacket_framed_iff_discarded :
    let packets : List WirePacket :=
      [⟨0x30, [0, 1, 97, 98, 99], by decide⟩, ⟨0x40, [0, 5], by decide⟩]
    Machine.Along (Framing.step 4) (Framing.CallFramed 4)
      ⟨packets, wire packets, fun _ => 0⟩
      [[.bytes 1, .bytes 1, .bytes 9, .bytes 9],
        [.bytes 1, .bytes 1, .bytes 2]] :=
  (readMqttPacket_framed_iff (by decide) _ _ _).mpr
    ⟨fun _ => by decide, fun _ => by decide, trivial⟩

/-- A body read that times out after three of five bytes is reported as a
packet: two bytes of the packet are stale and its end is still to be read. -/
theorem shortBodyRead_losesFraming :
    let packet : WirePacket := ⟨0x30, [0, 1, 97, 98, 99], by decide⟩
    let start : Framing := ⟨[packet], wire [packet], fun _ => 0xEE⟩
    let reads : List ReadOutcome := [.bytes 1, .bytes 1, .bytes 3]
    let result := start.call uiotMqttRxBufLen reads
    result.ret = .ok MessageTypes.publish.code ∧
      result.readBuf.slice 0 7 = [0x30, 5, 0, 1, 97, 0xEE, 0xEE] ∧
      result.net.stream = [98, 99] ∧
      ¬Machine.Along (Framing.step uiotMqttRxBufLen)
        (Framing.CallFramed uiotMqttRxBufLen) start [reads] := by
  intro packet start reads result
  refine ⟨by decide, by decide, by decide, fun along => ?_⟩
  have delivers := (start.callFramed_iff (by decide) rfl reads).mp along.1
  have wholeBody := (delivers (Nat.le_refl 1)).2
  revert wholeBody
  decide

end Mqtt
end UIoT
