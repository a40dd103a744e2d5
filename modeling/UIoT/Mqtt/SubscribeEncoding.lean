import UIoT.Mqtt.SubscribeGrammar

/-!
# Encoding of filter lists

The loops of the serialisers of SUBSCRIBE and UNSUBSCRIBE take the texts at the
first addresses of the first filter for the filters.  For a list of one filter
they are the list; a longer list is encoded as it stands only if every filter
is the end of the first one from its index on.
-/

namespace UIoT
namespace Mqtt

/-! ## Requests -/

/-- A topic filter: not empty, and no longer than its length field counts. -/
structure FilterText where
  text : CString
  nonempty : text.bytes ≠ []
  length_lt : text.bytes.length < 2 ^ 16

/-- A list of filters to subscribe to, with service levels, or to cancel. -/
inductive FilterRequest
  | subscribe (entries : List (FilterText × QoS))
  | unsubscribe (entries : List FilterText)

namespace FilterRequest

/-- The array of filters. -/
def topicFilters : FilterRequest → List CString
  | subscribe entries => entries.map fun entry => entry.1.text
  | unsubscribe entries => entries.map FilterText.text

/-- The length of the body of the packet. -/
def bodyLen : FilterRequest → Nat
  | subscribe entries =>
      subscribeBodyLen (entries.map fun entry => entry.1.text)
  | unsubscribe entries => unsubscribeBodyLen (entries.map FilterText.text)

/-- What the serialiser answers. -/
def serialize (bufLen : Nat) (dup : UInt8) (packetId : UInt16)
    (behind : Nat → CString) (buf : Memory) :
    FilterRequest → Except IoTError (Memory × Nat)
  | subscribe entries =>
      let topicFilters := entries.map fun entry => entry.1.text
      serializeSubscribePacket behind buf bufLen dup packetId
        topicFilters.length topicFilters (entries.map Prod.snd)
  | unsubscribe entries =>
      let topicFilters := entries.map FilterText.text
      serializeUnsubscribePacket behind buf bufLen dup packetId
        topicFilters.length topicFilters

/-- By the grammar the bytes are the request with this identifier. -/
def Reads (packetId : UInt16) (bytes : List UInt8) : FilterRequest → Prop
  | subscribe entries =>
      grammarSubscribe bytes = some (packetId,
        entries.map fun entry => (entry.1.text.bytes, entry.2.bits))
  | unsubscribe entries =>
      grammarUnsubscribe bytes = some (packetId,
        entries.map fun entry => entry.text.bytes)

/-- Whatever the buffer holds and whatever lies behind the first filter, the
serialiser produces bytes that are the request. -/
def Encodes (request : FilterRequest) (bufLen : Nat) (dup : UInt8)
    (packetId : UInt16) : Prop :=
  ∀ behind buf, ∃ memory len,
    request.serialize bufLen dup packetId behind buf = .ok (memory, len) ∧
      request.Reads packetId (memory.slice 0 len)

end FilterRequest

/-! ## Filters found by the loops -/

/-- Every filter is the end of the first one from its index on. -/
def FollowFirst (topicFilters : List CString) : Prop :=
  ∀ first ∈ topicFilters.head?, ∀ index other,
    topicFilters[index]? = some other →
      index ≤ first.bytes.length ∧ other = first.drop index

/-- The empty text. -/
def noText : CString := ⟨[], List.not_mem_nil⟩

theorem getElem?_filtersWritten (behind : Nat → CString)
    (topicFilters : List CString) {index : Nat}
    (inside : index < topicFilters.length) :
    (filtersWritten behind topicFilters)[index]? =
      some (topicFilterAt behind topicFilters index) := by
  rw [filtersWritten, List.getElem?_map, List.getElem?_range inside]
  rfl

@[simp] theorem length_filtersWritten (behind : Nat → CString)
    (topicFilters : List CString) :
    (filtersWritten behind topicFilters).length = topicFilters.length := by
  rw [filtersWritten, List.length_map, List.length_range]

/-- Filters that follow the first one are what the loops find. -/
theorem FollowFirst.written {topicFilters : List CString}
    (follow : FollowFirst topicFilters) (behind : Nat → CString) :
    filtersWritten behind topicFilters = topicFilters := by
  apply List.ext_getElem?
  intro index
  by_cases inside : index < topicFilters.length
  · rw [getElem?_filtersWritten behind topicFilters inside]
    cases topicFilters with
    | nil => exact absurd inside (Nat.not_lt_zero _)
    | cons first others =>
        have listed := List.getElem?_eq_getElem inside
        obtain ⟨reached, same⟩ := follow first rfl index _ listed
        rw [listed, same, topicFilterAt, if_pos reached]
  · have short := Nat.le_of_not_lt inside
    rw [List.getElem?_eq_none (by simpa using short),
      List.getElem?_eq_none short]

/-- If the loops find the filters although nothing lies behind the first one,
they follow it. -/
theorem followFirst_of_written {topicFilters : List CString}
    (nonempty : ∀ topicFilter ∈ topicFilters, topicFilter.bytes ≠ [])
    (written : filtersWritten (fun _ => noText) topicFilters = topicFilters) :
    FollowFirst topicFilters := by
  intro first isFirst index other listed
  have inside : index < topicFilters.length :=
    (List.getElem?_eq_some_iff.mp listed).1
  have found := getElem?_filtersWritten (fun _ => noText) topicFilters inside
  rw [written, listed] at found
  have same := Option.some.inj found
  cases topicFilters with
  | nil => exact absurd isFirst nofun
  | cons head others =>
      obtain rfl : head = first := Option.some.inj isFirst
      rw [topicFilterAt] at same
      split at same
      · rename_i reached
        exact ⟨reached, same⟩
      · have filled := nonempty other (List.mem_of_getElem? listed)
        rw [same] at filled
        exact absurd rfl filled

/-- A filter the loops find in a short filter or in nothing is short. -/
theorem length_filtersWritten_lt {topicFilters : List CString}
    (short : ∀ topicFilter ∈ topicFilters, topicFilter.bytes.length < 2 ^ 16) :
    ∀ topicFilter ∈ filtersWritten (fun _ => noText) topicFilters,
      topicFilter.bytes.length < 2 ^ 16 := by
  intro topicFilter mem
  obtain ⟨index, -, rfl⟩ := List.mem_map.mp mem
  unfold topicFilterAt
  split
  · exact (by decide : (0 : Nat) < 2 ^ 16)
  · rename_i first others
    have firstShort := short first List.mem_cons_self
    split
    · have shorter : (first.drop index).bytes.length ≤ first.bytes.length := by
        rw [CString.drop, List.length_drop]
        exact Nat.sub_le ..
      exact Nat.lt_of_le_of_lt shorter firstShort
    · exact (by decide : (0 : Nat) < 2 ^ 16)

/-! ## One list of entries -/

section Entries

variable {α : Type} {parse : List UInt8 → Option (α × List UInt8)}
  {filterOf : α → List UInt8} {valid : α → Prop} {encode : α → List UInt8}

/-- A packet that is read as a list of entries has written just these. -/
theorem eq_of_answers_read
    (inverts : RepeatedFormat.Inverts parse valid encode)
    {header other : UInt8} {remLen bufLen : Nat} {packetId : UInt16}
    {written entries : List α}
    {serialize : Memory → Except IoTError (Memory × Nat)}
    (answers : Answers other remLen bufLen
      (mqttWriteUint16 packetId ++ written.flatMap encode) serialize)
    (sameLength : written.length = entries.length)
    (allValid : ∀ entry ∈ written, valid entry)
    {buf memory : Memory} {len : Nat}
    (accepted : serialize buf = .ok (memory, len))
    (read : grammarPacket parse filterOf header (memory.slice 0 len) =
      some (packetId, entries)) :
    ¬bufLen < countedLen remLen ∧ other = header ∧ written = entries := by
  have answer := answers buf
  rw [accepted] at answer
  split at answer
  · exact absurd answer nofun
  rename_i roomy
  refine ⟨roomy, ?_⟩
  let bytes := packetBytes other remLen
    (mqttWriteUint16 packetId ++ written.flatMap encode)
  obtain ⟨rfl, rfl⟩ := Prod.mk.inj (Except.ok.inj answer)
  -- the length may wrap, so only the start of the packet is read
  have inside : bytes.length % 2 ^ 32 ≤ bytes.length := Nat.mod_le ..
  obtain ⟨rest, total⟩ := Nat.exists_eq_add_of_le inside
  have whole := Memory.slice_write_same buf 0 bytes
  rw [total, Memory.slice_add] at whole
  obtain ⟨sameHeader, start, readBody, parts⟩ :=
    grammarPacket_sound whole.symm read
  obtain ⟨body, entriesValid⟩ := grammarBody_sound inverts readBody
  rw [body, List.append_assoc] at parts
  have payload := List.append_cancel_left parts
  have same := inverts.flatMap_append_inj sameLength allValid entriesValid
    ((List.append_nil _).trans payload)
  exact ⟨sameHeader, same.1⟩

/-- A list of entries that is written within the limits is read back. -/
theorem read_of_answers
    (inverts : RepeatedFormat.Inverts parse valid encode)
    {header : UInt8} {bufLen : Nat} {packetId : UInt16} {entries : List α}
    {serialize : Memory → Except IoTError (Memory × Nat)}
    (answers : Answers header
      (mqttWriteUint16 packetId ++ entries.flatMap encode).length bufLen
      (mqttWriteUint16 packetId ++ entries.flatMap encode) serialize)
    (small : (mqttWriteUint16 packetId ++ entries.flatMap encode).length ≤
      maxRemLen)
    (roomy : ¬bufLen < countedLen
      (mqttWriteUint16 packetId ++ entries.flatMap encode).length)
    (some_entry : entries ≠ [])
    (allValid : ∀ entry ∈ entries, valid entry)
    (nonempty : ∀ entry ∈ entries, filterOf entry ≠ []) (buf : Memory) :
    ∃ memory len, serialize buf = .ok (memory, len) ∧
      grammarPacket parse filterOf header (memory.slice 0 len) =
        some (packetId, entries) := by
  have answer := answers buf
  rw [if_neg roomy, serialized] at answer
  refine ⟨_, _, answer, ?_⟩
  have total := length_packetBytes header
    (mqttWriteUint16 packetId ++ entries.flatMap encode).length
    (mqttWriteUint16 packetId ++ entries.flatMap encode)
  have field := mqttWritePacketRemLen_length_le small
  have unwrapped : (packetBytes header
      (mqttWriteUint16 packetId ++ entries.flatMap encode).length
      (mqttWriteUint16 packetId ++ entries.flatMap encode)).length <
        2 ^ 32 := by
    unfold maxRemLen at small
    omega
  rw [Nat.mod_eq_of_lt unwrapped, Memory.slice_write_same]
  exact grammarPacket_written small
    (grammarBody_written inverts packetId some_entry allValid nonempty)

/-- The check of the buffer lets a packet that fits pass, unless its field is
overcounted and it fills the buffer. -/
theorem not_lt_countedLen_iff {bodyLen bufLen : Nat}
    (fits : Fits bodyLen bufLen) :
    ¬bufLen < countedLen bodyLen ↔
      ¬(Overcounted bodyLen ∧ bufLen = packetLen bodyLen) := by
  obtain ⟨small, room⟩ := fits
  rw [countedLen_of_le small]
  by_cases boundary : Overcounted bodyLen
  · rw [if_pos boundary]
    simp only [boundary, true_and]
    omega
  · rw [if_neg boundary]
    simp only [boundary, false_and, not_false_eq_true, iff_true]
    omega

/-- When a serialiser that writes the filters its loop finds encodes a list,
whatever lies behind the first filter. -/
theorem encodes_iff_of_answers
    (inverts : RepeatedFormat.Inverts parse valid encode)
    {header other : UInt8} {bufLen : Nat} {packetId : UInt16}
    {serialize : (Nat → CString) → Memory → Except IoTError (Memory × Nat)}
    (written : (Nat → CString) → List α) {entries : List α}
    {topicFilters : List CString} (lengthOf : List CString → Nat)
    (answers : ∀ behind, Answers other
      (lengthOf (filtersWritten behind topicFilters) % 2 ^ 32) bufLen
      (mqttWriteUint16 packetId ++ (written behind).flatMap encode)
      (serialize behind))
    (lengths : ∀ behind,
      (mqttWriteUint16 packetId ++ (written behind).flatMap encode).length =
        lengthOf (filtersWritten behind topicFilters))
    (written_eq_iff : ∀ behind, written behind = entries ↔
      filtersWritten behind topicFilters = topicFilters)
    (sameLength : ∀ behind, (written behind).length = entries.length)
    (writtenValid : ∀ entry ∈ written fun _ => noText, valid entry)
    (entriesValid : ∀ entry ∈ entries, valid entry)
    (some_entry : entries ≠ [])
    (entriesNonempty : ∀ entry ∈ entries, filterOf entry ≠ [])
    (filtersNonempty : ∀ topicFilter ∈ topicFilters, topicFilter.bytes ≠ [])
    (fits : Fits (lengthOf topicFilters) bufLen) :
    (∀ behind buf, ∃ memory len,
        serialize behind buf = .ok (memory, len) ∧
          grammarPacket parse filterOf header (memory.slice 0 len) =
            some (packetId, entries)) ↔
      other = header ∧ FollowFirst topicFilters ∧
        ¬(Overcounted (lengthOf topicFilters) ∧
          bufLen = packetLen (lengthOf topicFilters)) := by
  have unwrapped : lengthOf topicFilters % 2 ^ 32 = lengthOf topicFilters := by
    have small := fits.1
    unfold maxRemLen at small
    omega
  rw [← not_lt_countedLen_iff fits]
  constructor
  · intro encodes
    obtain ⟨memory, len, accepted, read⟩ := encodes (fun _ => noText) fun _ => 0
    obtain ⟨roomy, sameHeader, same⟩ := eq_of_answers_read inverts
      (answers fun _ => noText) (sameLength _) writtenValid accepted read
    have found := (written_eq_iff _).mp same
    rw [found, unwrapped] at roomy
    exact ⟨sameHeader, followFirst_of_written filtersNonempty found, roomy⟩
  · rintro ⟨rfl, follow, roomy⟩ behind buf
    have found := follow.written behind
    have same := (written_eq_iff behind).mpr found
    have answer := answers behind
    have length := lengths behind
    rw [found] at answer length
    rw [unwrapped, same, ← length, same] at answer
    rw [same] at length
    rw [← length] at fits roomy
    exact read_of_answers inverts answer fits.1 roomy some_entry entriesValid
      entriesNonempty buf

end Entries

/-! ## Header bytes -/

/-- Only an even duplicate flag gives the header byte the grammar asks for. -/
theorem subscribeHeader_iff : ∀ dup < 256,
    mqttInitPacketHeader .subscribe .qos1 (UInt8.ofNat dup) 0 = .ok 0x82 ↔
      UInt8.ofNat dup &&& 1 = 0 := by
  decide +kernel

theorem unsubscribeHeader_iff : ∀ dup < 256,
    mqttInitPacketHeader .unsubscribe .qos1 (UInt8.ofNat dup) 0 = .ok 0xA2 ↔
      UInt8.ofNat dup &&& 1 = 0 := by
  decide +kernel

/-! ## The two serialisers -/

/-- Texts are equal when their bytes are. -/
theorem map_bytes_inj {first second : List CString} :
    first.map CString.bytes = second.map CString.bytes ↔ first = second :=
  List.map_inj_right fun _ _ same => CString.ext same

section Subscribe

variable (entries : List (FilterText × QoS))

/-- What the loop of `_serialize_subscribe_packet` writes. -/
def subscriptionsWritten (behind : Nat → CString) : List (List UInt8 × UInt8) :=
  let topicFilters := entries.map fun entry => entry.1.text
  (List.range topicFilters.length).map fun index =>
    ((topicFilterAt behind topicFilters index).bytes,
      ((entries.map Prod.snd).getD index .qos0).bits)

theorem subscriptionsWritten_eq_iff (behind : Nat → CString) :
    subscriptionsWritten entries behind =
        (entries.map fun entry => (entry.1.text.bytes, entry.2.bits)) ↔
      filtersWritten behind (entries.map fun entry => entry.1.text) =
        entries.map fun entry => entry.1.text := by
  rw [← map_bytes_inj]
  constructor
  · intro same
    have filters := congrArg (List.map Prod.fst) same
    simpa [subscriptionsWritten, filtersWritten, List.map_map,
      Function.comp_def] using filters
  · intro same
    apply List.ext_getElem
    · simp [subscriptionsWritten]
    · intro index inWritten inEntries
      rw [List.length_map] at inEntries
      have filter := congrArg (fun texts => texts[index]?) same
      simp only [List.map_map, List.getElem?_map, filtersWritten] at filter
      rw [List.getElem?_range (by simpa using inEntries),
        List.getElem?_eq_getElem inEntries] at filter
      have level : (entries.map Prod.snd).getD index .qos0 =
          entries[index].2 := by
        rw [List.getD_eq_getElem?_getD, List.getElem?_map,
          List.getElem?_eq_getElem inEntries]
        rfl
      simp only [subscriptionsWritten, List.getElem_map, List.getElem_range,
        level]
      exact Prod.ext (Option.some.inj filter) rfl

end Subscribe

theorem bits_le_two (qos : QoS) : qos.bits ≤ 2 := by
  cases qos <;> decide

/-- When SUBSCRIBE encodes a list of filters and levels. -/
theorem subscribe_encodes_iff {entries : List (FilterText × QoS)}
    (some_entry : entries ≠ []) {bufLen : Nat}
    (fits : Fits (FilterRequest.subscribe entries).bodyLen bufLen)
    {dup header : UInt8}
    (built : mqttInitPacketHeader .subscribe .qos1 dup 0 = .ok header)
    (packetId : UInt16) :
    (FilterRequest.subscribe entries).Encodes bufLen dup packetId ↔
      header = 0x82 ∧
        FollowFirst (FilterRequest.subscribe entries).topicFilters ∧
        ¬(Overcounted (FilterRequest.subscribe entries).bodyLen ∧
          bufLen = packetLen (FilterRequest.subscribe entries).bodyLen) := by
  let topicFilters := entries.map fun entry => entry.1.text
  have writtenBytes : ∀ behind,
      subscribeEntries behind topicFilters.length topicFilters
          (entries.map Prod.snd) =
        (subscriptionsWritten entries behind).flatMap subscriptionBytes := by
    intro behind
    rw [subscriptionsWritten, List.flatMap_map]
    rfl
  change (∀ behind buf, ∃ memory len,
      serializeSubscribePacket behind buf bufLen dup packetId
          topicFilters.length topicFilters (entries.map Prod.snd) =
        .ok (memory, len) ∧
      grammarPacket grammarSubscription Prod.fst 0x82 (memory.slice 0 len) =
        some (packetId,
          entries.map fun entry => (entry.1.text.bytes, entry.2.bits))) ↔ _
  apply encodes_iff_of_answers grammarSubscription_inverts
    (subscriptionsWritten entries) subscribeBodyLen
  · intro behind
    have answers := serializeSubscribePacket_answers behind bufLen built
      packetId topicFilters (entries.map Prod.snd)
    rw [writtenBytes] at answers
    exact answers
  · intro behind
    rw [← writtenBytes]
    exact length_subscribeEntries ..
  · exact subscriptionsWritten_eq_iff entries
  · intro behind
    simp [subscriptionsWritten]
  · intro entry mem
    obtain ⟨index, inRange, rfl⟩ := List.mem_map.mp mem
    refine ⟨?_, bits_le_two _⟩
    have short : ∀ topicFilter ∈ topicFilters,
        topicFilter.bytes.length < 2 ^ 16 := by
      intro topicFilter listed
      obtain ⟨entry, -, rfl⟩ := List.mem_map.mp listed
      exact entry.1.length_lt
    exact length_filtersWritten_lt short _
      (List.mem_map.mpr ⟨index, inRange, rfl⟩)
  · intro entry mem
    obtain ⟨listed, -, rfl⟩ := List.mem_map.mp mem
    exact ⟨listed.1.length_lt, bits_le_two _⟩
  · simpa using some_entry
  · intro entry mem
    obtain ⟨listed, -, rfl⟩ := List.mem_map.mp mem
    exact listed.1.nonempty
  · intro topicFilter mem
    obtain ⟨listed, -, rfl⟩ := List.mem_map.mp mem
    exact listed.1.nonempty
  · exact fits

/-- When UNSUBSCRIBE encodes a list of filters. -/
theorem unsubscribe_encodes_iff {entries : List FilterText}
    (some_entry : entries ≠ []) {bufLen : Nat}
    (fits : Fits (FilterRequest.unsubscribe entries).bodyLen bufLen)
    {dup header : UInt8}
    (built : mqttInitPacketHeader .unsubscribe .qos1 dup 0 = .ok header)
    (packetId : UInt16) :
    (FilterRequest.unsubscribe entries).Encodes bufLen dup packetId ↔
      header = 0xA2 ∧
        FollowFirst (FilterRequest.unsubscribe entries).topicFilters ∧
        ¬(Overcounted (FilterRequest.unsubscribe entries).bodyLen ∧
          bufLen = packetLen (FilterRequest.unsubscribe entries).bodyLen) := by
  let topicFilters := entries.map FilterText.text
  let written := fun behind =>
    (filtersWritten behind topicFilters).map CString.bytes
  have writtenBytes : ∀ behind,
      unsubscribeEntries behind topicFilters.length topicFilters =
        (written behind).flatMap stringBytes := by
    intro behind
    simp only [written, filtersWritten, List.flatMap_map, List.map_map]
    rfl
  have short : ∀ topicFilter ∈ topicFilters,
      topicFilter.bytes.length < 2 ^ 16 := by
    intro topicFilter listed
    obtain ⟨entry, -, rfl⟩ := List.mem_map.mp listed
    exact entry.length_lt
  have texts : (entries.map fun entry => entry.text.bytes) =
      topicFilters.map CString.bytes := by
    rw [List.map_map]
    rfl
  change (∀ behind buf, ∃ memory len,
      serializeUnsubscribePacket behind buf bufLen dup packetId
          topicFilters.length topicFilters = .ok (memory, len) ∧
      grammarPacket grammarString id 0xA2 (memory.slice 0 len) =
        some (packetId, entries.map fun entry => entry.text.bytes)) ↔ _
  apply encodes_iff_of_answers grammarString_inverts written unsubscribeBodyLen
  · intro behind
    have answers := serializeUnsubscribePacket_answers behind bufLen built
      packetId topicFilters
    rw [writtenBytes] at answers
    exact answers
  · intro behind
    rw [← writtenBytes]
    exact length_unsubscribeEntries ..
  · intro behind
    rw [texts]
    exact map_bytes_inj
  · intro behind
    simp [written, topicFilters]
  · intro text mem
    obtain ⟨topicFilter, listed, rfl⟩ := List.mem_map.mp mem
    exact length_filtersWritten_lt short _ listed
  · intro text mem
    obtain ⟨listed, -, rfl⟩ := List.mem_map.mp mem
    exact listed.length_lt
  · simpa using some_entry
  · intro text mem
    obtain ⟨listed, -, rfl⟩ := List.mem_map.mp mem
    exact listed.nonempty
  · intro topicFilter mem
    obtain ⟨listed, -, rfl⟩ := List.mem_map.mp mem
    exact listed.nonempty
  · exact fits

/-- The serialisers encode a list of filters that fits the buffer exactly if
the duplicate flag is even, every filter is the end of the first one from its
index on, and the packet is not refused for an overcounted field. -/
theorem filterRequest_encodes_iff (request : FilterRequest)
    (some_filter : request.topicFilters ≠ []) {bufLen : Nat}
    (fits : Fits request.bodyLen bufLen) (dup : UInt8) (packetId : UInt16) :
    request.Encodes bufLen dup packetId ↔
      dup &&& 1 = 0 ∧ FollowFirst request.topicFilters ∧
        ¬(Overcounted request.bodyLen ∧
          bufLen = packetLen request.bodyLen) := by
  cases request with
  | subscribe entries =>
      obtain ⟨header, built⟩ :=
        mqttInitPacketHeader_ok .subscribe .qos1 dup 0 nofun
      have even := subscribeHeader_iff dup.toNat dup.toNat_lt
      rw [UInt8.ofNat_toNat, built, Except.ok.injEq] at even
      rw [← even]
      apply subscribe_encodes_iff _ fits built
      rintro rfl
      exact some_filter rfl
  | unsubscribe entries =>
      obtain ⟨header, built⟩ :=
        mqttInitPacketHeader_ok .unsubscribe .qos1 dup 0 nofun
      have even := unsubscribeHeader_iff dup.toNat dup.toNat_lt
      rw [UInt8.ofNat_toNat, built, Except.ok.injEq] at even
      rw [← even]
      apply unsubscribe_encodes_iff _ fits built
      rintro rfl
      exact some_filter rfl

/-- The filters `"ab"` and `"b"`, of which the second follows the first. -/
def abAndB : FilterRequest :=
  .unsubscribe [⟨⟨[97, 98], CString.zero_not_mem_ab⟩, by decide, by decide⟩,
    ⟨⟨[98], CString.zero_not_mem_b⟩, by decide, by decide⟩]

/-- The case of `"ab"` and `"b"`. -/
theorem filterRequest_encodes_iff_abAndB :
    abAndB.Encodes 64 0 1 ↔
      (0 : UInt8) &&& 1 = 0 ∧ FollowFirst abAndB.topicFilters ∧
        ¬(Overcounted abAndB.bodyLen ∧ 64 = packetLen abAndB.bodyLen) :=
  filterRequest_encodes_iff abAndB (by decide) (by unfold Fits; decide) 0 1

/-- The filters `"a"` and `"b"`. -/
def aAndB : List FilterText :=
  [⟨textA, by decide, by decide⟩,
    ⟨⟨[98], CString.zero_not_mem_b⟩, by decide, by decide⟩]

/-- The filters `"a"` and `"b"` are not encoded as they stand. -/
theorem secondFilter_notEncoded :
    ¬∀ (request : FilterRequest) (bufLen : Nat) (packetId : UInt16),
      request.topicFilters ≠ [] → Fits request.bodyLen bufLen →
        request.Encodes bufLen 0 packetId := by
  intro all
  have fits : Fits (FilterRequest.unsubscribe aAndB).bodyLen 64 := by
    unfold Fits
    decide
  have encodes := all (.unsubscribe aAndB) 64 1 (by decide) fits
  have built : mqttInitPacketHeader .unsubscribe .qos1 0 0 = .ok 0xA2 := rfl
  obtain ⟨-, follow, -⟩ :=
    (unsubscribe_encodes_iff (by decide) fits built 1).mp encodes
  have second := (follow textA rfl 1 ⟨[98], by decide⟩ rfl).2
  exact absurd (congrArg CString.bytes second) (by decide)

end Mqtt
end UIoT
