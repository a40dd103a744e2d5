import Mathlib.Algebra.BigOperators.Group.List.Basic
import UIoT.Library.RepeatedFormat
import UIoT.Mqtt.SerializerBounds

/-!
# The grammar of SUBSCRIBE and UNSUBSCRIBE

The packets as MQTT 3.1.1 defines them: a fixed header whose Remaining Length
counts what follows, a packet identifier, and one or more topic filters, in
SUBSCRIBE each with the requested service level.  The serialisers write packets
of this shape, for the filters their loops find.
-/

namespace UIoT
namespace Mqtt

/-! ## Fields -/

/-- The number in two bytes. -/
def numberOf (msb lsb : UInt8) : Nat := 256 * msb.toNat + lsb.toNat

/-- A string with its length in front. -/
def grammarString : List UInt8 → Option (List UInt8 × List UInt8)
  | msb :: lsb :: rest =>
      if numberOf msb lsb ≤ rest.length then
        some (rest.take (numberOf msb lsb), rest.drop (numberOf msb lsb))
      else
        none
  | _ => none

/-- A topic filter with the requested service level. -/
def grammarSubscription (bytes : List UInt8) :
    Option ((List UInt8 × UInt8) × List UInt8) :=
  match grammarString bytes with
  | some (topicFilter, qos :: rest) =>
      if qos ≤ 2 then some ((topicFilter, qos), rest) else none
  | _ => none

/-- The bytes of a string with its length in front. -/
def stringBytes (text : List UInt8) : List UInt8 :=
  mqttWriteUint16 (UInt16.ofNat text.length) ++ text

/-- The bytes of a filter with its service level. -/
def subscriptionBytes (entry : List UInt8 × UInt8) : List UInt8 :=
  stringBytes entry.1 ++ [entry.2]

theorem numberOf_written (value : UInt16) :
    numberOf (value / 256).toUInt8 (value % 256).toUInt8 = value.toNat := by
  have bound := value.toNat_lt
  simp [numberOf, UInt16.toNat_div, UInt16.toNat_mod]
  omega

theorem written_of_numberOf (msb lsb : UInt8) :
    mqttWriteUint16 (UInt16.ofNat (numberOf msb lsb)) = [msb, lsb] := by
  have high := msb.toNat_lt
  have low := lsb.toNat_lt
  have number : (UInt16.ofNat (numberOf msb lsb)).toNat = numberOf msb lsb := by
    rw [UInt16.toNat_ofNat']
    unfold numberOf
    omega
  have first : (UInt16.ofNat (numberOf msb lsb) / 256).toUInt8 = msb := by
    apply UInt8.toNat_inj.mp
    rw [UInt16.toNat_toUInt8, UInt16.toNat_div, number]
    unfold numberOf
    simp
    omega
  have second : (UInt16.ofNat (numberOf msb lsb) % 256).toUInt8 = lsb := by
    apply UInt8.toNat_inj.mp
    rw [UInt16.toNat_toUInt8, UInt16.toNat_mod, number]
    unfold numberOf
    simp
  rw [mqttWriteUint16, first, second]

/-- Strings are read back. -/
theorem grammarString_inverts :
    RepeatedFormat.Inverts grammarString (fun text => text.length < 2 ^ 16)
      stringBytes where
  complete := by
    intro text rest short
    have length : (UInt16.ofNat text.length).toNat = text.length := by
      rw [UInt16.toNat_ofNat']
      exact Nat.mod_eq_of_lt short
    have room : text.length ≤ (text ++ rest).length := by simp
    change grammarString (_ :: _ :: (text ++ rest)) = _
    rw [grammarString, numberOf_written, length, if_pos room]
    simp
  sound := by
    intro items text rest read
    unfold grammarString at read
    split at read
    · rename_i msb lsb others
      split at read
      · rename_i room
        obtain ⟨rfl, rfl⟩ := Prod.mk.inj (Option.some.inj read)
        have length : (others.take (numberOf msb lsb)).length =
            numberOf msb lsb := List.length_take_of_le room
        have high := msb.toNat_lt
        have low := lsb.toNat_lt
        refine ⟨?_, ?_⟩
        · rw [length]
          unfold numberOf
          omega
        · rw [stringBytes, length, written_of_numberOf, List.append_assoc,
            List.take_append_drop]
          rfl
      · exact absurd read nofun
    · exact absurd read nofun
  nonempty := fun _ => nofun

/-- Filters with their service levels are read back. -/
theorem grammarSubscription_inverts :
    RepeatedFormat.Inverts grammarSubscription
      (fun entry => entry.1.length < 2 ^ 16 ∧ entry.2 ≤ 2)
      subscriptionBytes where
  complete := by
    rintro ⟨topicFilter, qos⟩ rest ⟨short, level⟩
    have string := grammarString_inverts.complete topicFilter (qos :: rest)
      short
    rw [subscriptionBytes, List.append_assoc, List.singleton_append]
    unfold grammarSubscription
    rw [string]
    dsimp only
    rw [if_pos level]
  sound := by
    intro items entry rest read
    unfold grammarSubscription at read
    split at read
    · rename_i topicFilter qos others string
      split at read
      · rename_i level
        obtain ⟨rfl, rfl⟩ := Prod.mk.inj (Option.some.inj read)
        obtain ⟨short, parts⟩ := grammarString_inverts.sound _ _ _ string
        refine ⟨⟨short, level⟩, ?_⟩
        rw [parts, subscriptionBytes, List.append_assoc, List.singleton_append]
      · exact absurd read nofun
    · exact absurd read nofun
  nonempty := fun _ => nofun

/-! ## Packets -/

section Packets

variable {α : Type} (parse : List UInt8 → Option (α × List UInt8))
  (filterOf : α → List UInt8)

/-- A packet identifier and one or more entries, no filter of which is
empty. -/
def grammarBody : List UInt8 → Option (UInt16 × List α)
  | msb :: lsb :: payload =>
      match RepeatedFormat.parseAll parse payload.length payload with
      | some entries =>
          if entries ≠ [] ∧ ∀ entry ∈ entries, filterOf entry ≠ [] then
            some (UInt16.ofNat (numberOf msb lsb), entries)
          else
            none
      | none => none
  | _ => none

/-- A packet with this header byte.  Its Remaining Length has at most four bytes
and is the number of bytes that follow it. -/
def grammarPacket (header : UInt8) : List UInt8 → Option (UInt16 × List α)
  | [] => none
  | first :: bytes =>
      if first = header then
        match ContinuationCode.decode ContinuationCode.popByte ()
            maxNoOfRemainingLengthBytes 1 0 bytes with
        | (body, .ok remLen) =>
            if remLen = body.length then grammarBody parse filterOf body
            else none
        | (_, .error _) => none
      else
        none

end Packets

/-- A SUBSCRIBE packet. -/
def grammarSubscribe :
    List UInt8 → Option (UInt16 × List (List UInt8 × UInt8)) :=
  grammarPacket grammarSubscription Prod.fst 0x82

/-- An UNSUBSCRIBE packet. -/
def grammarUnsubscribe : List UInt8 → Option (UInt16 × List (List UInt8)) :=
  grammarPacket grammarString id 0xA2

example : grammarSubscribe [0x82, 6, 0, 1, 0, 1, 97, 1] =
    some (1, [([97], 1)]) := by decide

section Packets

variable {α : Type} {parse : List UInt8 → Option (α × List UInt8)}
  {filterOf : α → List UInt8} {valid : α → Prop} {encode : α → List UInt8}

/-- Bodies of valid entries are read back. -/
theorem grammarBody_written
    (inverts : RepeatedFormat.Inverts parse valid encode) (packetId : UInt16)
    {entries : List α} (some_entry : entries ≠ [])
    (allValid : ∀ entry ∈ entries, valid entry)
    (nonempty : ∀ entry ∈ entries, filterOf entry ≠ []) :
    grammarBody parse filterOf
        (mqttWriteUint16 packetId ++ entries.flatMap encode) =
      some (packetId, entries) := by
  have enough : entries.length ≤ (entries.flatMap encode).length := by
    rw [List.length_flatMap]
    have each : ∀ length ∈ entries.map fun entry => (encode entry).length,
        1 ≤ length := by
      intro length mem
      obtain ⟨entry, -, rfl⟩ := List.mem_map.mp mem
      exact List.length_pos_iff.mpr (inverts.nonempty entry)
    have total := List.length_le_sum_of_one_le _ each
    rwa [List.length_map] at total
  have read := inverts.parseAll_flatMap allValid enough
  change grammarBody parse filterOf (_ :: _ :: entries.flatMap encode) = _
  rw [grammarBody, read]
  dsimp only
  rw [if_pos ⟨some_entry, nonempty⟩, numberOf_written, UInt16.ofNat_toNat]

/-- What is read as a body is the encoding of what was read. -/
theorem grammarBody_sound
    (inverts : RepeatedFormat.Inverts parse valid encode) {body : List UInt8}
    {packetId : UInt16} {entries : List α}
    (read : grammarBody parse filterOf body = some (packetId, entries)) :
    body = mqttWriteUint16 packetId ++ entries.flatMap encode ∧
      ∀ entry ∈ entries, valid entry := by
  unfold grammarBody at read
  split at read
  · rename_i msb lsb payload
    split at read
    · rename_i parsed parses
      split at read
      · obtain ⟨rfl, rfl⟩ := Prod.mk.inj (Option.some.inj read)
        obtain ⟨allValid, parts⟩ := inverts.eq_flatMap_of_parseAll parses
        refine ⟨?_, allValid⟩
        rw [written_of_numberOf, ← parts]
        rfl
      · exact absurd read nofun
    · exact absurd read nofun
  · exact absurd read nofun

/-- A packet whose Remaining Length counts its body is read back. -/
theorem grammarPacket_written {header : UInt8} {body : List UInt8}
    {packet : UInt16 × List α} (small : body.length ≤ maxRemLen)
    (read : grammarBody parse filterOf body = some packet) :
    grammarPacket parse filterOf header
        (packetBytes header body.length body) = some packet := by
  have below : body.length < 128 ^ maxNoOfRemainingLengthBytes :=
    Nat.lt_of_le_of_lt small (by decide)
  have supplies := ContinuationCode.supplies_popByte
    (ContinuationCode.encode maxNoOfRemainingLengthBytes body.length) body
  have decoded := ContinuationCode.decode_of_supplies () below (by decide)
    (Nat.le_refl _) 1 0 supplies
  rw [packetBytes, grammarPacket, if_pos rfl,
    mqttWritePacketRemLen_eq_encode small, decoded]
  dsimp only
  rw [Nat.zero_add, Nat.mul_one, if_pos rfl, read]

/-- What is read as a packet at the start of some bytes has the header and the
body found there. -/
theorem grammarPacket_sound {header other : UInt8} {remLen : Nat}
    {body bytes tail : List UInt8} {packet : UInt16 × List α}
    (parts : packetBytes other remLen body = bytes ++ tail)
    (read : grammarPacket parse filterOf header bytes = some packet) :
    other = header ∧
      ∃ start, grammarBody parse filterOf start = some packet ∧
        body = start ++ tail := by
  unfold grammarPacket at read
  split at read
  · cases read
  rename_i first rest
  rw [packetBytes, List.cons_append, List.cons.injEq] at parts
  obtain ⟨rfl, parts⟩ := parts
  split at read
  · rename_i sameHeader
    refine ⟨sameHeader, ?_⟩
    split at read
    · rename_i start found decoded
      split at read
      · refine ⟨start, read, ?_⟩
        have longer := ContinuationCode.decode_popByte_append decoded tail
        rw [← parts, mqttWritePacketRemLen] at longer
        by_cases small : remLen ≤ maxRemLen
        · have below : remLen < 128 ^ maxNoOfRemainingLengthBytes :=
            Nat.lt_of_le_of_lt small (by decide)
          have supplies := ContinuationCode.supplies_popByte
            (ContinuationCode.encode maxNoOfRemainingLengthBytes remLen) body
          have whole := ContinuationCode.decode_of_supplies () below
            (by decide) (Nat.le_refl _) 1 0 supplies
          have encoded := mqttWritePacketRemLen_eq_encode small
          rw [mqttWritePacketRemLen] at encoded
          rw [encoded, whole] at longer
          exact (Prod.mk.inj longer).1
        · have large : 128 ^ maxNoOfRemainingLengthBytes ≤ remLen :=
            Nat.le_trans (by decide) (Nat.lt_of_not_le small)
          obtain ⟨left, fails⟩ := ContinuationCode.decode_encode_of_ge
            (show maxNoOfRemainingLengthBytes < 5 by decide) large 1 0 body
          rw [fails] at longer
          cases (Prod.mk.inj longer).2
      · cases read
    · cases read
  · cases read

end Packets

end Mqtt
end UIoT
