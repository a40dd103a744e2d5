import UIoT.Mqtt.StreamFraming

/-!
# The Remaining Length codec

One loop writes the Remaining Length and two loops read it, one from a buffer
and one from the network.  The two readers are the same decoder with different
sources, and a source that supplies the same bytes makes them do the same.
-/

namespace UIoT
namespace Mqtt

/-! ## Writing -/

/-- A length is written in one to four bytes, in the canonical form, and they
are read back from any buffer that holds them and from any stream that starts
with them. -/
structure EncodesExactly (length : Nat) : Prop where
  pos : 1 ≤ (mqttWritePacketRemLen length).length
  le : (mqttWritePacketRemLen length).length ≤ 4
  canonical : ContinuationCode.Canonical length (mqttWritePacketRemLen length)
  decodes : ∀ memory cursor,
    memory.slice cursor.position (mqttWritePacketRemLen length).length =
        mqttWritePacketRemLen length →
      mqttReadPacketRemLenFormBuf memory cursor =
        (cursor.advance (mqttWritePacketRemLen length).length, .ok length)
  receives : ∀ stream reads,
    EachArrives (mqttWritePacketRemLen length).length reads →
      decodePacketRemLenWithNetRead
          ⟨mqttWritePacketRemLen length ++ stream, reads⟩ =
        (⟨stream, reads.drop (mqttWritePacketRemLen length).length⟩,
          .ok length)

theorem encodesExactly_of_le {length : Nat} (small : length ≤ maxRemLen) :
    EncodesExactly length where
  pos := mqttWritePacketRemLen_length_pos length
  le := mqttWritePacketRemLen_length_le small
  canonical := by
    have below : length < 128 ^ maxNoOfRemainingLengthBytes :=
      Nat.lt_of_le_of_lt small (by decide)
    rw [mqttWritePacketRemLen_eq_encode small]
    exact ContinuationCode.encode_canonical below (by decide)
  decodes := fun _ _ canonical =>
    mqttReadPacketRemLenFormBuf_canonical small canonical
  receives := fun stream _ arrive =>
    decodePacketRemLenWithNetRead_written small arrive stream

/-! ## Reading -/

/-- The two readers accept the same value after the same number of bytes, or
both find that four bytes do not end the number.  Nothing they compute on the
way exceeds an `uint32_t`. -/
structure DecodersAgree (memory : Memory) (cursor : Cursor) (net : NetIn) :
    Prop where
  ret : (decodePacketRemLenWithNetRead net).2 =
    (mqttReadPacketRemLenFormBuf memory cursor).2
  count : ∃ count, 1 ≤ count ∧ count ≤ 4 ∧
    (mqttReadPacketRemLenFormBuf memory cursor).1 = cursor.advance count ∧
    (decodePacketRemLenWithNetRead net).1.stream = net.stream.drop count
  accepts : (∃ length, (decodePacketRemLenWithNetRead net).2 = .ok length) ↔
    ∃ byte ∈ net.stream.take 4, byte &&& 128 = 0
  fails : (decodePacketRemLenWithNetRead net).2 =
      .error .errMqttPacketReadError ↔
    ∀ byte ∈ net.stream.take 4, byte &&& 128 ≠ 0
  netBelow : ContinuationCode.StaysBelow (2 ^ 32) NetIn.readChar
    maxNoOfRemainingLengthBytes 1 0 net
  bufBelow : ContinuationCode.StaysBelow (2 ^ 32) (bufchar memory)
    maxNoOfRemainingLengthBytes 1 0 cursor

/-- Fewer reads get their bytes when more do. -/
theorem EachArrives.of_le {first second : Nat} (shorter : first ≤ second)
    {reads : List ReadOutcome} (arrive : EachArrives second reads) :
    EachArrives first reads := by
  induction first generalizing second reads with
  | zero => trivial
  | succ first inductionHypothesis =>
      obtain ⟨second, rfl⟩ := Nat.exists_eq_succ_of_ne_zero
        (Nat.lt_of_lt_of_le (Nat.succ_pos first) shorter).ne'
      cases reads with
      | nil => exact arrive.elim
      | cons outcome reads =>
          exact ⟨arrive.1,
            inductionHypothesis (Nat.le_of_succ_le_succ shorter) arrive.2⟩

/-- The readers do the same with a number that does not end. -/
theorem decoders_of_continued {memory : Memory} {cursor : Cursor}
    {bytes : List UInt8} {reads : List ReadOutcome} (rest : List UInt8)
    (arrive : EachArrives bytes.length reads)
    (four : bytes.length = maxNoOfRemainingLengthBytes)
    (held : memory.slice cursor.position bytes.length = bytes)
    (continued : ∀ byte ∈ bytes, byte &&& 128 ≠ 0) :
    decodePacketRemLenWithNetRead ⟨bytes ++ rest, reads⟩ =
        (⟨rest, reads.drop bytes.length⟩, .error .errMqttPacketReadError) ∧
      mqttReadPacketRemLenFormBuf memory cursor =
        (cursor.advance bytes.length, .error .errMqttPacketReadError) := by
  have fromNet := supplies_readChar arrive rest
  have fromBuf := supplies_bufchar memory cursor bytes.length
  rw [held] at fromBuf
  unfold decodePacketRemLenWithNetRead mqttReadPacketRemLenFormBuf
  rw [← four]
  exact ⟨ContinuationCode.decode_of_continued _ continued 1 0 fromNet,
    ContinuationCode.decode_of_continued _ continued 1 0 fromBuf⟩

/-- The readers do the same with a number that ends. -/
theorem decoders_of_ended {memory : Memory} {cursor : Cursor}
    {before : List UInt8} {last : UInt8} {reads : List ReadOutcome}
    (rest : List UInt8)
    (arrive : EachArrives (before ++ [last]).length reads)
    (short : before.length < maxNoOfRemainingLengthBytes)
    (held : memory.slice cursor.position (before ++ [last]).length =
      before ++ [last])
    (continued : ∀ byte ∈ before, byte &&& 128 ≠ 0)
    (ended : last &&& 128 = 0) :
    ∃ length,
      decodePacketRemLenWithNetRead ⟨(before ++ [last]) ++ rest, reads⟩ =
          (⟨rest, reads.drop (before ++ [last]).length⟩, .ok length) ∧
        mqttReadPacketRemLenFormBuf memory cursor =
          (cursor.advance (before ++ [last]).length, .ok length) := by
  have fromNet := supplies_readChar arrive rest
  have fromBuf := supplies_bufchar memory cursor (before ++ [last]).length
  rw [held] at fromBuf
  exact ⟨_,
    ContinuationCode.decode_of_ended _ continued ended short 1 0 fromNet,
    ContinuationCode.decode_of_ended _ continued ended short 1 0 fromBuf⟩

/-- The readers agree on four bytes that arrive and lie in the buffer. -/
theorem decodersAgree_of_arrives {memory : Memory} {cursor : Cursor}
    {net : NetIn} (sent : 4 ≤ net.stream.length)
    (arrive : EachArrives 4 net.reads)
    (held : memory.slice cursor.position 4 = net.stream.take 4) :
    DecodersAgree memory cursor net := by
  obtain ⟨stream, reads⟩ := net
  dsimp only at sent arrive held
  have below : (1 : Nat) * 128 ^ maxNoOfRemainingLengthBytes < 2 ^ 32 := by
    decide
  have netBelow : ContinuationCode.StaysBelow (2 ^ 32) NetIn.readChar
      maxNoOfRemainingLengthBytes 1 0 ⟨stream, reads⟩ :=
    ContinuationCode.staysBelow_of_pow Nat.zero_lt_one below _
  have bufBelow : ContinuationCode.StaysBelow (2 ^ 32) (bufchar memory)
      maxNoOfRemainingLengthBytes 1 0 cursor :=
    ContinuationCode.staysBelow_of_pow Nat.zero_lt_one below _
  have parts : stream = stream.take 4 ++ stream.drop 4 :=
    (List.take_append_drop 4 stream).symm
  have four : (stream.take 4).length = 4 := List.length_take_of_le sent
  rcases ContinuationCode.all_continued_or_ended (stream.take 4) with
    continued | ⟨before, last, after, bytes, continued, ended⟩
  · have whole : memory.slice cursor.position (stream.take 4).length =
        stream.take 4 := by
      rw [four]
      exact held
    obtain ⟨fromNet, fromBuf⟩ := decoders_of_continued
      (stream.drop 4) (four.symm ▸ arrive) four whole continued
    rw [← parts] at fromNet
    refine ⟨?_, ⟨4, by decide, Nat.le_refl _, ?_, ?_⟩, ?_, ?_, netBelow,
      bufBelow⟩
    · rw [fromNet, fromBuf]
    · rw [fromBuf, four]
    · rw [fromNet]
    · rw [fromNet]
      refine iff_of_false nofun ?_
      rintro ⟨byte, mem, ended⟩
      exact continued byte mem ended
    · rw [fromNet]
      exact iff_of_true rfl continued
  · have total := four
    rw [bytes] at total
    have size : (before ++ [last]).length + after.length = 4 := by
      simp only [List.length_append, List.length_cons] at total ⊢
      simp only [List.length_nil]
      omega
    have whole : stream = (before ++ [last]) ++ (after ++ stream.drop 4) := by
      conv_lhs => rw [parts, bytes]
      simp
    have start : memory.slice cursor.position (before ++ [last]).length =
        before ++ [last] := by
      rw [bytes, ← size, Memory.slice_add,
        List.append_cons before last after] at held
      exact (List.append_inj held (by simp)).1
    have arrives : EachArrives (before ++ [last]).length reads :=
      arrive.of_le (by omega)
    have short : before.length < maxNoOfRemainingLengthBytes := by
      rw [List.length_append, List.length_singleton] at size
      unfold maxNoOfRemainingLengthBytes
      omega
    obtain ⟨length, fromNet, fromBuf⟩ := decoders_of_ended
      (after ++ stream.drop 4) arrives short start continued ended
    rw [← whole] at fromNet
    have found : last ∈ stream.take 4 := by
      rw [bytes]
      exact List.mem_append_right _ List.mem_cons_self
    refine ⟨?_, ⟨(before ++ [last]).length, ?_, ?_, ?_, ?_⟩, ?_, ?_, netBelow,
      bufBelow⟩
    · rw [fromNet, fromBuf]
    · rw [List.length_append, List.length_singleton]
      exact Nat.le_add_left ..
    · omega
    · rw [fromBuf]
    · rw [fromNet]
      conv_rhs => rw [whole, List.drop_left]
    · rw [fromNet]
      exact iff_of_true ⟨length, rfl⟩ ⟨last, found, ended⟩
    · rw [fromNet]
      exact iff_of_false nofun fun all => all last found ended

/-! ## The codec -/

/-- The codec of the Remaining Length is exact in both directions. -/
theorem remainingLength_codec :
    (∀ length ≤ maxRemLen, EncodesExactly length) ∧
      ∀ (memory : Memory) (cursor : Cursor) (net : NetIn),
        4 ≤ net.stream.length → EachArrives 4 net.reads →
          memory.slice cursor.position 4 = net.stream.take 4 →
            DecodersAgree memory cursor net :=
  ⟨fun _ small => encodesExactly_of_le small,
    fun _ _ _ sent arrive held => decodersAgree_of_arrives sent arrive held⟩

/-- The case of the length 321 and of the bytes `C1 02`, in a buffer and from
the network. -/
theorem remainingLength_codec_twoBytes :
    EncodesExactly 321 ∧
      DecodersAgree (fun address => [0xC1, 0x02, 0, 0].getD address 0) .start
        ⟨[0xC1, 0x02, 0, 0], List.replicate 4 (.bytes 1)⟩ :=
  ⟨remainingLength_codec.1 321 (by decide),
    remainingLength_codec.2 _ _ _ (by decide) (by decide) (by decide)⟩

end Mqtt
end UIoT
