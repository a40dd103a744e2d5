import UIoT.Mqtt.OutgoingFraming

/-!
# Bounds of the serialisers

A serialiser compares the size of the buffer with a length it computes from the
Remaining Length.  That length is not always the length of the packet: the
thresholds for the size of the Remaining Length field are applied to a value
that counts the header byte already, the field of a length beyond the limit
is taken for one of four bytes, and the Remaining Length itself is an
`uint32_t`.
-/

namespace UIoT
namespace Mqtt

/-! ## The length of a packet -/

/-- The size of the Remaining Length field. -/
theorem length_mqttWritePacketRemLen (length : Nat) :
    (mqttWritePacketRemLen length).length =
      if length < 128 then 1
      else if length < 16384 then 2
      else if length < 2097152 then 3
      else if length < 268435456 then 4
      else 5 := by
  simp only [mqttWritePacketRemLen, ContinuationCode.encode,
    Nat.div_div_eq_div_mul]
  split_ifs <;> first | rfl | omega

/-- The Remaining Lengths whose field is counted one byte too long. -/
def Overcounted (remLen : Nat) : Prop :=
  remLen = 127 ∨ remLen = 16383 ∨ remLen = 2097150 ∨ remLen = 2097151

instance (remLen : Nat) : Decidable (Overcounted remLen) :=
  inferInstanceAs (Decidable (_ ∨ _))

/-- The length the serialisers check, from the length of the packet. -/
def countedLen (remLen : Nat) : Nat :=
  packetLen remLen + (if Overcounted remLen then 1 else 0) -
    (if maxRemLen < remLen then 1 else 0)

theorem getMqttPacketLen_eq_countedLen (remLen : Nat) :
    getMqttPacketLen remLen = countedLen remLen := by
  unfold getMqttPacketLen countedLen packetLen maxRemLen
  rw [length_mqttWritePacketRemLen]
  dsimp only
  by_cases boundary : Overcounted remLen
  · rw [if_pos boundary]
    unfold Overcounted at boundary
    split_ifs <;> omega
  · rw [if_neg boundary]
    unfold Overcounted at boundary
    split_ifs <;> omega

theorem packetLen_lt_packetLen {first second : Nat} (less : first < second) :
    packetLen first < packetLen second := by
  unfold packetLen
  rw [length_mqttWritePacketRemLen, length_mqttWritePacketRemLen]
  split_ifs <;> omega

theorem packetLen_inj {first second : Nat}
    (same : packetLen first = packetLen second) : first = second := by
  rcases Nat.lt_trichotomy first second with less | equal | greater
  · exact absurd same (packetLen_lt_packetLen less).ne
  · exact equal
  · exact absurd same (packetLen_lt_packetLen greater).ne'

/-- A body of a length the field can carry makes a packet of this size. -/
theorem packetLen_le {bodyLen : Nat} (small : bodyLen ≤ maxRemLen) :
    packetLen bodyLen ≤ bodyLen + 5 := by
  have field := mqttWritePacketRemLen_length_le small
  unfold packetLen
  omega

/-! ## Exact bounds -/

/-- The true packet has a length the field can carry and fits in the
buffer. -/
def Fits (bodyLen bufLen : Nat) : Prop :=
  bodyLen ≤ maxRemLen ∧ packetLen bodyLen ≤ bufLen

/-- A serialiser of a packet with a body of this length succeeds exactly if the
packet fits, leaves what lies behind the buffer alone and answers the length
of the packet, whatever the buffer holds before. -/
structure BoundsExact (bodyLen bufLen : Nat)
    (serialize : Memory → Except IoTError (Memory × Nat)) : Prop where
  accepts : ∀ buf, (∃ answer, serialize buf = .ok answer) ↔
    Fits bodyLen bufLen
  inside : ∀ buf memory len, serialize buf = .ok (memory, len) →
    ∀ address, bufLen ≤ address → memory address = buf address
  len_eq : ∀ buf memory len, serialize buf = .ok (memory, len) →
    len = packetLen bodyLen

/-- A packet of this header, Remaining Length and rest is the answer, unless the
counted length exceeds the buffer. -/
def Answers (header : UInt8) (remLen bufLen : Nat) (rest : List UInt8)
    (serialize : Memory → Except IoTError (Memory × Nat)) : Prop :=
  ∀ buf, serialize buf =
    if bufLen < countedLen remLen then .error .errMqttBufferTooShort
    else .ok (serialized buf (packetBytes header remLen rest))

/-- The shape the serialisers share. -/
def Checked (remLen bufLen : Nat) (rest : List UInt8)
    (serialize : Memory → Except IoTError (Memory × Nat)) : Prop :=
  ∃ header, Answers header remLen bufLen rest serialize

theorem length_packetBytes (header : UInt8) (remLen : Nat)
    (rest : List UInt8) :
    (packetBytes header remLen rest).length =
      1 + (mqttWritePacketRemLen remLen).length + rest.length := by
  simp only [packetBytes, List.length_cons, List.length_append]
  omega

/-- A write stays inside a buffer exactly if it is short enough. -/
theorem write_inside_iff (bytes : List UInt8) (bufLen : Nat) :
    (∀ (buf : Memory) (address : Nat), bufLen ≤ address →
        buf.write 0 bytes address = buf address) ↔
      bytes.length ≤ bufLen := by
  constructor
  · intro inside
    by_contra long
    have within : bufLen < bytes.length := Nat.lt_of_not_le long
    -- a buffer that differs from what is written to it
    let buf : Memory := fun _ => bytes[bufLen] + 1
    have changed := inside buf bufLen (Nat.le_refl _)
    simp only [Memory.write, Nat.zero_le, if_true, Nat.sub_zero,
      List.getElem?_eq_getElem within, Option.getD_some, buf] at changed
    have sameNat := congrArg UInt8.toNat changed
    rw [UInt8.toNat_add, UInt8.toNat_one] at sameNat
    have small := bytes[bufLen].toNat_lt
    omega
  · intro short buf address outside
    have missing : bytes[address - 0]? = none := by
      apply List.getElem?_eq_none
      omega
    rw [Memory.write, if_pos (Nat.zero_le _), missing, Option.getD_none]

/-- When a serialiser of the common shape is exact. -/
theorem Checked.boundsExact_iff {remLen bodyLen bufLen : Nat}
    {rest : List UInt8} {serialize : Memory → Except IoTError (Memory × Nat)}
    (checked : Checked remLen bufLen rest serialize) :
    BoundsExact bodyLen bufLen serialize ↔
      if bufLen < countedLen remLen then ¬Fits bodyLen bufLen
      else
        Fits bodyLen bufLen ∧
          1 + (mqttWritePacketRemLen remLen).length + rest.length ≤ bufLen ∧
          (1 + (mqttWritePacketRemLen remLen).length + rest.length) % 2 ^ 32 =
            packetLen bodyLen := by
  obtain ⟨header, answers⟩ := checked
  unfold Answers at answers
  have total := length_packetBytes header remLen rest
  by_cases short : bufLen < countedLen remLen
  · simp only [if_pos short] at answers ⊢
    constructor
    · intro exact fits
      obtain ⟨answer, accepted⟩ := (exact.accepts fun _ => 0).mpr fits
      rw [answers] at accepted
      exact absurd accepted nofun
    · intro unfit
      refine ⟨fun buf => ?_, fun buf memory len accepted => ?_,
        fun buf memory len accepted => ?_⟩
      · rw [answers]
        exact iff_of_false nofun unfit
      · exact absurd ((answers buf).symm.trans accepted) nofun
      · exact absurd ((answers buf).symm.trans accepted) nofun
  · simp only [if_neg short] at answers ⊢
    rw [← total]
    constructor
    · intro exact
      refine ⟨(exact.accepts fun _ => 0).mp ⟨_, answers _⟩, ?_, ?_⟩
      · rw [← write_inside_iff]
        exact fun buf => exact.inside buf _ _ (answers buf)
      · exact exact.len_eq (fun _ => 0) _ _ (answers _)
    · rintro ⟨fits, inside, len⟩
      rw [← write_inside_iff] at inside
      refine ⟨fun buf => iff_of_true ⟨_, answers buf⟩ fits,
        fun buf memory len accepted => ?_, fun buf memory len' accepted => ?_⟩
      · rw [answers, serialized] at accepted
        obtain ⟨rfl, -⟩ := Prod.mk.inj (Except.ok.inj accepted)
        exact inside buf
      · rw [answers, serialized] at accepted
        obtain ⟨-, rfl⟩ := Prod.mk.inj (Except.ok.inj accepted)
        exact len

/-! ## Conditions on the lengths -/

/-- The check is exact for a packet whose Remaining Length counts its body: the
buffer has not exactly the size of a packet whose field is overcounted, and a
body beyond the limit is refused for what is left of its length. -/
def PlainBounds (bodyLen bufLen : Nat) : Prop :=
  if bodyLen ≤ maxRemLen then ¬(Overcounted bodyLen ∧ bufLen = packetLen bodyLen)
  else bufLen < countedLen (bodyLen % 2 ^ 32)

/-- The check is exact for a packet of which `writtenLen` bytes are written
behind the field: a refused packet does not fit, and of an accepted one no
more is written than the buffer takes and the field counts. -/
def WrittenBounds (bodyLen writtenLen bufLen : Nat) : Prop :=
  if bufLen < countedLen (writtenLen % 2 ^ 32) then ¬Fits bodyLen bufLen
  else
    writtenLen % 2 ^ 32 = bodyLen ∧ bodyLen ≤ maxRemLen ∧
      1 + (mqttWritePacketRemLen bodyLen).length + writtenLen ≤ bufLen

/-- The check is exact for a CONNECT whose length leaves out twelve bytes of
the body: a refused packet does not fit, and an accepted one fits and has a
field of the same size without them. -/
def ShortenedBounds (bodyLen bufLen : Nat) : Prop :=
  if bufLen < countedLen ((bodyLen - 12) % 2 ^ 32) then ¬Fits bodyLen bufLen
  else
    Fits bodyLen bufLen ∧
      (mqttWritePacketRemLen (bodyLen - 12)).length =
        (mqttWritePacketRemLen bodyLen).length

/-- Within the limit the counted length is that of the packet or one more. -/
theorem countedLen_of_le {remLen : Nat} (small : remLen ≤ maxRemLen) :
    countedLen remLen =
      packetLen remLen + if Overcounted remLen then 1 else 0 := by
  rw [countedLen, if_neg (Nat.not_lt.mpr small), Nat.sub_zero]

theorem packetLen_le_countedLen {remLen : Nat} (small : remLen ≤ maxRemLen) :
    packetLen remLen ≤ countedLen remLen := by
  rw [countedLen_of_le small]
  exact Nat.le_add_right ..

theorem Checked.boundsExact_iff_plain {bodyLen bufLen : Nat}
    {rest : List UInt8} {serialize : Memory → Except IoTError (Memory × Nat)}
    (checked : Checked (bodyLen % 2 ^ 32) bufLen rest serialize)
    (counts : rest.length = bodyLen) :
    BoundsExact bodyLen bufLen serialize ↔ PlainBounds bodyLen bufLen := by
  rw [checked.boundsExact_iff, counts, PlainBounds]
  by_cases small : bodyLen ≤ maxRemLen
  · have unwrapped : bodyLen % 2 ^ 32 = bodyLen := by
      unfold maxRemLen at small
      omega
    have size := packetLen_le small
    have total : (1 + (mqttWritePacketRemLen bodyLen).length + bodyLen) %
        2 ^ 32 = packetLen bodyLen := by
      unfold maxRemLen at small
      exact Nat.mod_eq_of_lt (by unfold packetLen at size; omega)
    rw [unwrapped, if_pos small, total, countedLen_of_le small, Fits,
      and_iff_right small]
    change (if _ then _ else _ ∧ packetLen bodyLen ≤ bufLen ∧ _) ↔ _
    by_cases boundary : Overcounted bodyLen
    · rw [if_pos boundary]
      simp only [boundary, true_and, and_true]
      split_ifs <;> omega
    · rw [if_neg boundary]
      simp only [boundary, false_and, not_false_eq_true, and_true, iff_true]
      split_ifs <;> omega
  · rw [if_neg small]
    have unfit : ¬Fits bodyLen bufLen := fun fits => small fits.1
    by_cases short : bufLen < countedLen (bodyLen % 2 ^ 32)
    · rw [if_pos short]
      exact iff_of_true unfit short
    · rw [if_neg short]
      exact iff_of_false (fun both => unfit both.1) short

theorem Checked.boundsExact_iff_written {bodyLen writtenLen bufLen : Nat}
    {rest : List UInt8} {serialize : Memory → Except IoTError (Memory × Nat)}
    (checked : Checked (writtenLen % 2 ^ 32) bufLen rest serialize)
    (counts : rest.length = writtenLen)
    (long : 4 ≤ bodyLen ∨ writtenLen = bodyLen) :
    BoundsExact bodyLen bufLen serialize ↔
      WrittenBounds bodyLen writtenLen bufLen := by
  rw [checked.boundsExact_iff, counts, WrittenBounds]
  by_cases short : bufLen < countedLen (writtenLen % 2 ^ 32)
  · rw [if_pos short, if_pos short]
  rw [if_neg short, if_neg short]
  constructor
  · rintro ⟨fits, inside, len⟩
    have same : writtenLen % 2 ^ 32 = bodyLen := by
      rcases long with long | same
      · -- a field that wraps counts fewer bytes than the shortest packet has
        apply packetLen_inj
        have size := packetLen_le fits.1
        have small := fits.1
        have positive := mqttWritePacketRemLen_length_pos bodyLen
        unfold packetLen maxRemLen at *
        rw [length_mqttWritePacketRemLen (writtenLen % 2 ^ 32)] at len ⊢
        split_ifs at len ⊢ <;> omega
      · have small := fits.1
        unfold maxRemLen at small
        omega
    rw [same] at inside
    exact ⟨same, fits.1, inside⟩
  · rintro ⟨same, small, inside⟩
    rw [same] at short ⊢
    have room : packetLen bodyLen ≤ bufLen :=
      (packetLen_le_countedLen small).trans (Nat.le_of_not_lt short)
    refine ⟨⟨small, room⟩, inside, ?_⟩
    have size := packetLen_le small
    unfold packetLen maxRemLen at *
    omega

theorem Checked.boundsExact_iff_shortened {bodyLen bufLen : Nat}
    {rest : List UInt8} {serialize : Memory → Except IoTError (Memory × Nat)}
    (checked : Checked ((bodyLen - 12) % 2 ^ 32) bufLen rest serialize)
    (counts : rest.length = bodyLen) :
    BoundsExact bodyLen bufLen serialize ↔ ShortenedBounds bodyLen bufLen := by
  rw [checked.boundsExact_iff, counts, ShortenedBounds]
  by_cases short : bufLen < countedLen ((bodyLen - 12) % 2 ^ 32)
  · rw [if_pos short, if_pos short]
  rw [if_neg short, if_neg short]
  apply and_congr_right
  intro fits
  have small := fits.1
  have room := fits.2
  have unwrapped : (bodyLen - 12) % 2 ^ 32 = bodyLen - 12 := by
    unfold maxRemLen at small
    omega
  have less : bodyLen - 12 ≤ maxRemLen := Nat.le_trans (Nat.sub_le ..) small
  have field := mqttWritePacketRemLen_length_le less
  have size := packetLen_le small
  rw [unwrapped]
  unfold packetLen maxRemLen at *
  constructor
  · rintro ⟨inside, len⟩
    omega
  · intro same
    rw [same]
    exact ⟨room, by omega⟩

/-! ## The serialisers -/

/-- Only the reserved type has no header byte. -/
theorem mqttInitPacketHeader_ok (messageType : MessageTypes) (qos : QoS)
    (dup retained : UInt8) (used : messageType ≠ .reserved) :
    ∃ header, mqttInitPacketHeader messageType qos dup retained =
      .ok header := by
  unfold mqttInitPacketHeader
  rw [if_neg used]
  exact ⟨_, rfl⟩

theorem serializePublishPacket_checked (bufLen : Nat) (dup : UInt8) (qos : QoS)
    (retained : UInt8) (packetId : UInt16) (topicName : CString)
    (payload : List UInt8) :
    Checked (publishBodyLen qos topicName payload.length % 2 ^ 32) bufLen
      (publishBody qos packetId topicName payload)
      fun buf => serializePublishPacket buf bufLen dup qos retained packetId
        topicName (some payload) := by
  obtain ⟨header, built⟩ :=
    mqttInitPacketHeader_ok .publish qos dup retained nofun
  have remLen : getPublishPacketLen qos topicName payload.length =
      publishBodyLen qos topicName payload.length % 2 ^ 32 := by
    unfold getPublishPacketLen publishBodyLen
    dsimp only
    split
    · congr 1
    · congr 1
      omega
  refine ⟨header, fun buf => ?_⟩
  unfold serializePublishPacket
  dsimp only
  rw [remLen, getMqttPacketLen_eq_countedLen, built]
  rfl

/-- The length of the body of a SUBSCRIBE for these filters. -/
def subscribeBodyLen (topicFilters : List CString) : Nat :=
  2 + (topicFilters.map fun topicFilter =>
    2 + topicFilter.bytes.length + 1).sum

/-- The length of the body of an UNSUBSCRIBE for these filters. -/
def unsubscribeBodyLen (topicFilters : List CString) : Nat :=
  2 + (topicFilters.map fun topicFilter => 2 + topicFilter.bytes.length).sum

/-- The filters the serialisers write: the texts at the first addresses of the
first filter. -/
def filtersWritten (behind : Nat → CString) (topicFilters : List CString) :
    List CString :=
  (List.range topicFilters.length).map (topicFilterAt behind topicFilters)

/-- A length summed up in a loop. -/
theorem foldl_add_eq_sum (start : Nat) (term : Nat → Nat)
    (indices : List Nat) :
    indices.foldl (fun len index => len + term index) start =
      start + (indices.map term).sum := by
  induction indices generalizing start with
  | nil => rfl
  | cons index indices inductionHypothesis =>
      rw [List.foldl_cons, inductionHypothesis, List.map_cons, List.sum_cons,
        Nat.add_assoc]

theorem serializeSubscribePacket_answers (behind : Nat → CString)
    (bufLen : Nat) {dup header : UInt8}
    (built : mqttInitPacketHeader .subscribe .qos1 dup 0 = .ok header)
    (packetId : UInt16) (topicFilters : List CString)
    (requestedQoSs : List QoS) :
    Answers header
      (subscribeBodyLen (filtersWritten behind topicFilters) % 2 ^ 32) bufLen
      (mqttWriteUint16 packetId ++ subscribeEntries behind topicFilters.length
        topicFilters requestedQoSs)
      fun buf => serializeSubscribePacket behind buf bufLen dup packetId
        topicFilters.length topicFilters requestedQoSs := by
  have remLen :
      getSubscribePacketRemLen behind topicFilters.length topicFilters =
        subscribeBodyLen (filtersWritten behind topicFilters) % 2 ^ 32 := by
    rw [getSubscribePacketRemLen, foldl_add_eq_sum, subscribeBodyLen,
      filtersWritten, List.map_map]
    rfl
  intro buf
  unfold serializeSubscribePacket
  dsimp only
  rw [remLen, getMqttPacketLen_eq_countedLen, built]

theorem length_subscribeEntries (behind : Nat → CString) (packetId : UInt16)
    (topicFilters : List CString) (requestedQoSs : List QoS) :
    (mqttWriteUint16 packetId ++ subscribeEntries behind topicFilters.length
        topicFilters requestedQoSs).length =
      subscribeBodyLen (filtersWritten behind topicFilters) := by
  rw [List.length_append, length_mqttWriteUint16, subscribeEntries,
    List.length_flatMap, subscribeBodyLen, filtersWritten, List.map_map]
  congr 2
  apply List.map_congr_left
  intro index _
  rw [List.length_append, length_mqttWriteUtf8String]
  rfl

theorem serializeUnsubscribePacket_answers (behind : Nat → CString)
    (bufLen : Nat) {dup header : UInt8}
    (built : mqttInitPacketHeader .unsubscribe .qos1 dup 0 = .ok header)
    (packetId : UInt16) (topicFilters : List CString) :
    Answers header
      (unsubscribeBodyLen (filtersWritten behind topicFilters) % 2 ^ 32) bufLen
      (mqttWriteUint16 packetId ++
        unsubscribeEntries behind topicFilters.length topicFilters)
      fun buf => serializeUnsubscribePacket behind buf bufLen dup packetId
        topicFilters.length topicFilters := by
  have remLen :
      getUnsubscribePacketRemLen behind topicFilters.length topicFilters =
        unsubscribeBodyLen (filtersWritten behind topicFilters) % 2 ^ 32 := by
    rw [getUnsubscribePacketRemLen, foldl_add_eq_sum, unsubscribeBodyLen,
      filtersWritten, List.map_map]
    rfl
  intro buf
  unfold serializeUnsubscribePacket
  dsimp only
  rw [remLen, getMqttPacketLen_eq_countedLen, built]

theorem length_unsubscribeEntries (behind : Nat → CString) (packetId : UInt16)
    (topicFilters : List CString) :
    (mqttWriteUint16 packetId ++
        unsubscribeEntries behind topicFilters.length topicFilters).length =
      unsubscribeBodyLen (filtersWritten behind topicFilters) := by
  rw [List.length_append, length_mqttWriteUint16, unsubscribeEntries,
    List.length_flatMap, unsubscribeBodyLen, filtersWritten, List.map_map]
  congr 2
  apply List.map_congr_left
  intro index _
  rw [length_mqttWriteUtf8String]
  rfl

/-- The Remaining Length of CONNECT leaves out the first twelve bytes of the
body for a protocol version that is neither 3 nor 4. -/
theorem getPacketConnectRemLen_eq_mod (options : MQTTConnectParams)
    (clientId : CString) :
    getPacketConnectRemLen options clientId =
      (if options.mqttVersion = 3 ∨ options.mqttVersion = 4 then
          (connectBody options clientId).length
        else (connectBody options clientId).length - 12) % 2 ^ 32 := by
  have three : (3 : UInt8) ≠ 4 := by decide
  by_cases isThree : options.mqttVersion = 3
  · simp [getPacketConnectRemLen, connectBody, isThree, length_optionalString,
      protocolMqIsdp]
    omega
  by_cases isFour : options.mqttVersion = 4
  · simp [getPacketConnectRemLen, connectBody, isFour, length_optionalString,
      protocolMqtt]
    omega
  · simp [getPacketConnectRemLen, connectBody, isThree, isFour,
      length_optionalString, protocolMqIsdp]
    omega

theorem serializeConnectPacket_checked (bufLen : Nat)
    {options : MQTTConnectParams} {clientId : CString}
    (present : options.clientId = some clientId)
    (named : clientId.bytes ≠ []) :
    Checked (getPacketConnectRemLen options clientId) bufLen
      (connectBody options clientId)
      fun buf => serializeConnectPacket buf bufLen options := by
  obtain ⟨header, built⟩ :=
    mqttInitPacketHeader_ok .connect .qos0 0 0 nofun
  refine ⟨header, fun buf => ?_⟩
  unfold serializeConnectPacket
  rw [present]
  dsimp only
  rw [if_neg named, getMqttPacketLen_eq_countedLen, built]
  rfl

/-- When the check of CONNECT is exact. -/
def ConnectBounds (options : MQTTConnectParams) (clientId : CString)
    (bufLen : Nat) : Prop :=
  let bodyLen := (connectBody options clientId).length
  if clientId.bytes = [] then ¬Fits bodyLen bufLen
  else if options.mqttVersion = 3 ∨ options.mqttVersion = 4 then
    PlainBounds bodyLen bufLen
  else
    ShortenedBounds bodyLen bufLen

theorem serializeConnectPacket_boundsExact_iff (bufLen : Nat)
    {options : MQTTConnectParams} {clientId : CString}
    (present : options.clientId = some clientId) :
    BoundsExact (connectBody options clientId).length bufLen
        (fun buf => serializeConnectPacket buf bufLen options) ↔
      ConnectBounds options clientId bufLen := by
  unfold ConnectBounds
  dsimp only
  by_cases anonymous : clientId.bytes = []
  · rw [if_pos anonymous]
    have refused : ∀ buf, serializeConnectPacket buf bufLen options =
        .error .errParamInvalid := by
      intro buf
      unfold serializeConnectPacket
      rw [present]
      dsimp only
      rw [if_pos anonymous]
    constructor
    · intro exact fits
      obtain ⟨answer, accepted⟩ := (exact.accepts fun _ => 0).mpr fits
      exact absurd ((refused _).symm.trans accepted) nofun
    · intro unfit
      refine ⟨fun buf => ?_, fun buf memory len accepted => ?_,
        fun buf memory len accepted => ?_⟩
      · rw [refused]
        exact iff_of_false nofun unfit
      · exact absurd ((refused buf).symm.trans accepted) nofun
      · exact absurd ((refused buf).symm.trans accepted) nofun
  · rw [if_neg anonymous]
    have checked := serializeConnectPacket_checked bufLen present anonymous
    rw [getPacketConnectRemLen_eq_mod] at checked
    by_cases known : options.mqttVersion = 3 ∨ options.mqttVersion = 4
    · rw [if_pos known] at checked ⊢
      exact checked.boundsExact_iff_plain rfl
    · rw [if_neg known] at checked ⊢
      exact checked.boundsExact_iff_shortened rfl

/-! ## All four -/

/-- A call of one of the four serialisers of packets with a variable length.
What lies behind the first filter in memory is an argument where the filters
are an array. -/
inductive Serialization
  | publish (dup : UInt8) (qos : QoS) (retained : UInt8) (packetId : UInt16)
      (topicName : CString) (payload : List UInt8)
  | subscribe (behind : Nat → CString) (dup : UInt8) (packetId : UInt16)
      (topicFilters : List CString) (requestedQoSs : List QoS)
  | unsubscribe (behind : Nat → CString) (dup : UInt8) (packetId : UInt16)
      (topicFilters : List CString)
  | connect (options : MQTTConnectParams) (clientId : CString)

namespace Serialization

/-- The call, with a buffer of this size. -/
def run (bufLen : Nat) : Serialization → Memory → Except IoTError (Memory × Nat)
  | publish dup qos retained packetId topicName payload => fun buf =>
      serializePublishPacket buf bufLen dup qos retained packetId topicName
        (some payload)
  | subscribe behind dup packetId topicFilters requestedQoSs => fun buf =>
      serializeSubscribePacket behind buf bufLen dup packetId
        topicFilters.length topicFilters requestedQoSs
  | unsubscribe behind dup packetId topicFilters => fun buf =>
      serializeUnsubscribePacket behind buf bufLen dup packetId
        topicFilters.length topicFilters
  | connect options clientId => fun buf =>
      serializeConnectPacket buf bufLen
        { options with clientId := some clientId }

/-- The length of the body of the packet that is to be serialised. -/
def bodyLen : Serialization → Nat
  | publish _ qos _ _ topicName payload =>
      publishBodyLen qos topicName payload.length
  | subscribe _ _ _ topicFilters _ => subscribeBodyLen topicFilters
  | unsubscribe _ _ _ topicFilters => unsubscribeBodyLen topicFilters
  | connect options clientId => (connectBody options clientId).length

/-- When the check of the buffer is exact. -/
def LengthChecked (bufLen : Nat) : Serialization → Prop
  | publish _ qos _ _ topicName payload =>
      PlainBounds (publishBodyLen qos topicName payload.length) bufLen
  | subscribe behind _ _ topicFilters _ =>
      WrittenBounds (subscribeBodyLen topicFilters)
        (subscribeBodyLen (filtersWritten behind topicFilters)) bufLen
  | unsubscribe behind _ _ topicFilters =>
      WrittenBounds (unsubscribeBodyLen topicFilters)
        (unsubscribeBodyLen (filtersWritten behind topicFilters)) bufLen
  | connect options clientId => ConnectBounds options clientId bufLen

end Serialization

/-- A serialiser's bounds are exact precisely when its check of the buffer
counts the right length. -/
theorem serialization_boundsExact_iff (serialization : Serialization)
    (bufLen : Nat) :
    BoundsExact serialization.bodyLen bufLen (serialization.run bufLen) ↔
      serialization.LengthChecked bufLen := by
  cases serialization with
  | publish dup qos retained packetId topicName payload =>
      apply Checked.boundsExact_iff_plain
      · exact serializePublishPacket_checked ..
      · exact length_publishBody ..
  | subscribe behind dup packetId topicFilters requestedQoSs =>
      obtain ⟨header, built⟩ :=
        mqttInitPacketHeader_ok .subscribe .qos1 dup 0 nofun
      apply Checked.boundsExact_iff_written
      · exact ⟨header, serializeSubscribePacket_answers behind bufLen built
          packetId topicFilters requestedQoSs⟩
      · exact length_subscribeEntries ..
      · cases topicFilters with
        | nil => exact .inr rfl
        | cons topicFilter topicFilters =>
            left
            rw [Serialization.bodyLen, subscribeBodyLen, List.map_cons,
              List.sum_cons]
            omega
  | unsubscribe behind dup packetId topicFilters =>
      obtain ⟨header, built⟩ :=
        mqttInitPacketHeader_ok .unsubscribe .qos1 dup 0 nofun
      apply Checked.boundsExact_iff_written
      · exact ⟨header, serializeUnsubscribePacket_answers behind bufLen built
          packetId topicFilters⟩
      · exact length_unsubscribeEntries ..
      · cases topicFilters with
        | nil => exact .inr rfl
        | cons topicFilter topicFilters =>
            left
            rw [Serialization.bodyLen, unsubscribeBodyLen, List.map_cons,
              List.sum_cons]
            omega
  | connect options clientId =>
      let named := { options with clientId := some clientId }
      have present : named.clientId = some clientId := rfl
      exact serializeConnectPacket_boundsExact_iff bufLen present

/-- A PUBLISH of 129 bytes is refused for a buffer of 129 bytes. -/
theorem publish_boundaryLength_refused :
    ¬∀ (serialization : Serialization) (bufLen : Nat),
      BoundsExact serialization.bodyLen bufLen (serialization.run bufLen) := by
  intro exact
  let publish : Serialization :=
    .publish 0 .qos0 0 0 textA (List.replicate 124 0)
  have accepts := (exact publish 129).accepts fun _ => 0
  have bodyLen : publish.bodyLen = 127 := by
    rw [Serialization.bodyLen, List.length_replicate]
    rfl
  have fits : Fits publish.bodyLen 129 := by
    rw [bodyLen]
    exact ⟨by decide, by decide⟩
  obtain ⟨answer, accepted⟩ := accepts.mpr fits
  obtain ⟨header, answers⟩ := serializePublishPacket_checked 129 0 .qos0 0 0
    textA (List.replicate 124 0)
  have refused := answers fun _ => 0
  rw [List.length_replicate, if_pos (by decide)] at refused
  exact absurd (refused.symm.trans accepted) nofun

end Mqtt
end UIoT
