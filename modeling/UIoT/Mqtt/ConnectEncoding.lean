import UIoT.Mqtt.SubscribeGrammar

/-!
# Encoding of CONNECT

CONNECT as the MQTT grammar defines it: the protocol, the connect flags and the
keep-alive time, and a payload in which the flags say which strings are there.
The serialiser writes such a packet exactly when the protocol version is known,
there is a password and no string is longer than its length field counts.
-/

namespace UIoT
namespace Mqtt

/-! ## The grammar -/

/-- What is published for a client that is lost. -/
structure WillMessage where
  topic : List UInt8
  message : List UInt8
  qos : UInt8
  retain : Bool
  deriving DecidableEq, Repr

/-- What a CONNECT says. -/
structure ConnectRequest where
  clientId : List UInt8
  will : Option WillMessage
  username : Option (List UInt8)
  password : Option (List UInt8)
  keepAlive : UInt16
  cleanSession : Bool
  deriving DecidableEq, Repr

/-- A string that is there when its flag is set. -/
def grammarOptional (flag : Bool) (bytes : List UInt8) :
    Option (Option (List UInt8) × List UInt8) :=
  if flag then (grammarString bytes).map fun read => (some read.1, read.2)
  else some (none, bytes)

/-- The will, the service level of which is not 3; the flags it uses are zero
where it is not there. -/
def grammarWill (flags : UInt8) (bytes : List UInt8) :
    Option (Option WillMessage × List UInt8) :=
  if flags &&& 0x04 = 0 then
    if flags &&& 0x38 = 0 then some (none, bytes) else none
  else if (flags >>> 3) &&& 3 = 3 then
    none
  else
    match grammarString bytes with
    | none => none
    | some (topic, bytes) =>
        (grammarString bytes).map fun read =>
          (some ⟨topic, read.1, (flags >>> 3) &&& 3, flags &&& 0x20 ≠ 0⟩,
            read.2)

/-- The payload: the client identifier, and what the flags announce. -/
def grammarConnectPayload (flags : UInt8) (keepAlive : UInt16)
    (bytes : List UInt8) : Option ConnectRequest :=
  match grammarString bytes with
  | none => none
  | some (clientId, bytes) =>
      match grammarWill flags bytes with
      | none => none
      | some (will, bytes) =>
          match grammarOptional (flags &&& 0x80 ≠ 0) bytes with
          | none => none
          | some (username, bytes) =>
              match grammarOptional (flags &&& 0x40 ≠ 0) bytes with
              | some (password, []) =>
                  some ⟨clientId, will, username, password, keepAlive,
                    flags &&& 0x02 ≠ 0⟩
              | _ => none

/-- The protocol names with their levels. -/
def KnownProtocol (name : List UInt8) (level : UInt8) : Prop :=
  name = protocolMqtt.bytes ∧ level = 4 ∨
    name = protocolMqIsdp.bytes ∧ level = 3

instance (name : List UInt8) (level : UInt8) :
    Decidable (KnownProtocol name level) :=
  inferInstanceAs (Decidable (_ ∨ _))

/-- The body: the protocol, the flags, the keep-alive time and the payload. -/
def grammarConnectBody (bytes : List UInt8) : Option ConnectRequest :=
  match grammarString bytes with
  | some (name, level :: flags :: msb :: lsb :: payload) =>
      if KnownProtocol name level ∧ flags &&& 0x01 = 0 then
        grammarConnectPayload flags (UInt16.ofNat (numberOf msb lsb)) payload
      else
        none
  | _ => none

/-- The header byte, and what follows the fixed header when the Remaining Length
counts it. -/
def grammarFrame : List UInt8 → Option (UInt8 × List UInt8)
  | [] => none
  | header :: bytes =>
      match ContinuationCode.decode ContinuationCode.popByte ()
          maxNoOfRemainingLengthBytes 1 0 bytes with
      | (body, .ok remLen) =>
          if remLen = body.length then some (header, body) else none
      | (_, .error _) => none

/-- A CONNECT packet. -/
def grammarConnect (bytes : List UInt8) : Option ConnectRequest :=
  match grammarFrame bytes with
  | some (header, body) =>
      if header = 0x10 then grammarConnectBody body else none
  | none => none

/-- The connect flags of a packet. -/
def grammarFlags (bytes : List UInt8) : Option UInt8 :=
  match grammarFrame bytes with
  | none => none
  | some (_, body) =>
      match grammarString body with
      | some (_, _ :: flags :: _) => some flags
      | _ => none

/-! ## Reading a frame -/

theorem grammarFrame_written {header : UInt8} {body : List UInt8}
    (small : body.length ≤ maxRemLen) :
    grammarFrame (packetBytes header body.length body) =
      some (header, body) := by
  have below : body.length < 128 ^ maxNoOfRemainingLengthBytes :=
    Nat.lt_of_le_of_lt small (by decide)
  have supplies := ContinuationCode.supplies_popByte
    (ContinuationCode.encode maxNoOfRemainingLengthBytes body.length) body
  have decoded := ContinuationCode.decode_of_supplies () below (by decide)
    (Nat.le_refl _) 1 0 supplies
  rw [packetBytes, grammarFrame, mqttWritePacketRemLen_eq_encode small, decoded]
  dsimp only
  rw [Nat.zero_add, Nat.mul_one, if_pos rfl]

/-- A frame that is read counts its body. -/
theorem grammarFrame_length {header read : UInt8} {remLen : Nat}
    {body found : List UInt8} (small : remLen ≤ maxRemLen)
    (frame : grammarFrame (packetBytes header remLen body) =
      some (read, found)) :
    remLen = body.length ∧ found = body ∧ read = header := by
  have below : remLen < 128 ^ maxNoOfRemainingLengthBytes :=
    Nat.lt_of_le_of_lt small (by decide)
  have supplies := ContinuationCode.supplies_popByte
    (ContinuationCode.encode maxNoOfRemainingLengthBytes remLen) body
  have decoded := ContinuationCode.decode_of_supplies () below (by decide)
    (Nat.le_refl _) 1 0 supplies
  rw [packetBytes, grammarFrame, mqttWritePacketRemLen_eq_encode small, decoded]
    at frame
  dsimp only at frame
  rw [Nat.zero_add, Nat.mul_one] at frame
  split at frame
  · rename_i counts
    obtain ⟨rfl, rfl⟩ := Prod.mk.inj (Option.some.inj frame)
    exact ⟨counts, rfl, rfl⟩
  · cases frame

/-! ## Reading a CONNECT -/

/-- What is read from a CONNECT is no longer than its length fields count. -/
structure ConnectRequest.Short (request : ConnectRequest) : Prop where
  clientId : request.clientId.length < 2 ^ 16
  username : ∀ text, request.username = some text → text.length < 2 ^ 16
  password : ∀ text, request.password = some text → text.length < 2 ^ 16

theorem grammarOptional_short {flag : Bool} {bytes rest : List UInt8}
    {read : Option (List UInt8)}
    (parses : grammarOptional flag bytes = some (read, rest)) :
    ∀ text, read = some text → text.length < 2 ^ 16 := by
  unfold grammarOptional at parses
  split at parses
  · obtain ⟨found, string, pair⟩ := Option.map_eq_some_iff.mp parses
    obtain ⟨rfl, rfl⟩ := Prod.mk.inj pair
    intro text same
    rw [← Option.some.inj same]
    exact (grammarString_inverts.sound _ _ _ string).1
  · obtain ⟨rfl, rfl⟩ := Prod.mk.inj (Option.some.inj parses)
    exact nofun

theorem grammarConnectPayload_short {flags : UInt8} {keepAlive : UInt16}
    {bytes : List UInt8} {request : ConnectRequest}
    (parses : grammarConnectPayload flags keepAlive bytes = some request) :
    request.Short := by
  unfold grammarConnectPayload at parses
  split at parses
  · exact absurd parses nofun
  rename_i clientId afterClient string
  split at parses
  · exact absurd parses nofun
  split at parses
  · exact absurd parses nofun
  rename_i username afterUser first
  split at parses
  · rename_i password second
    rw [← Option.some.inj parses]
    exact ⟨(grammarString_inverts.sound _ _ _ string).1,
      grammarOptional_short first, grammarOptional_short second⟩
  · exact absurd parses nofun

theorem grammarConnect_short {bytes : List UInt8} {request : ConnectRequest}
    (parses : grammarConnect bytes = some request) : request.Short := by
  unfold grammarConnect at parses
  split at parses
  · split at parses
    · unfold grammarConnectBody at parses
      split at parses
      · split at parses
        · exact grammarConnectPayload_short parses
        · exact absurd parses nofun
      · exact absurd parses nofun
    · exact absurd parses nofun
  · exact absurd parses nofun

/-! ## The flags of the client -/

theorem connectFlags_username (options : MQTTConnectParams) :
    connectFlags options &&& 0x80 ≠ 0 ↔ options.username.isSome := by
  unfold connectFlags
  by_cases clean : options.cleanSession ≠ 0 <;>
    cases options.username <;> simp [clean] <;> decide

/-- The client always announces a password. -/
theorem connectFlags_password (options : MQTTConnectParams) :
    connectFlags options &&& 0x40 ≠ 0 := by
  unfold connectFlags
  by_cases clean : options.cleanSession ≠ 0 <;>
    cases options.username <;> simp [clean] <;> decide

theorem connectFlags_clean (options : MQTTConnectParams) :
    connectFlags options &&& 0x02 ≠ 0 ↔ options.cleanSession ≠ 0 := by
  unfold connectFlags
  by_cases clean : options.cleanSession ≠ 0 <;>
    cases options.username <;> simp [clean] <;> decide

theorem connectFlags_reserved (options : MQTTConnectParams) :
    connectFlags options &&& 0x01 = 0 ∧ connectFlags options &&& 0x04 = 0 ∧
      connectFlags options &&& 0x38 = 0 := by
  unfold connectFlags
  by_cases clean : options.cleanSession ≠ 0 <;>
    cases options.username <;> simp [clean] <;> decide

/-! ## Reading what the client writes -/

/-- The protocol the client speaks. -/
def protocolName (options : MQTTConnectParams) : CString :=
  if options.mqttVersion = 4 then protocolMqtt else protocolMqIsdp

/-- The level it gives for it. -/
def protocolLevel (options : MQTTConnectParams) : UInt8 :=
  if options.mqttVersion = 4 then 4 else 3

/-- What follows the variable header. -/
def connectPayload (options : MQTTConnectParams) (clientId : CString) :
    List UInt8 :=
  stringBytes clientId.bytes ++
    (optionalString options.username ++ optionalString options.password)

theorem protocolName_short (options : MQTTConnectParams) :
    (protocolName options).bytes.length < 2 ^ 16 := by
  unfold protocolName
  split <;> decide

theorem knownProtocol_written (options : MQTTConnectParams) :
    KnownProtocol (protocolName options).bytes (protocolLevel options) := by
  unfold protocolName protocolLevel
  split
  · exact Or.inl ⟨rfl, rfl⟩
  · exact Or.inr ⟨rfl, rfl⟩

theorem connectBody_eq (options : MQTTConnectParams) (clientId : CString) :
    connectBody options clientId =
      stringBytes (protocolName options).bytes ++
        protocolLevel options :: connectFlags options ::
          (options.keepAliveInterval / 256).toUInt8 ::
          (options.keepAliveInterval % 256).toUInt8 ::
          connectPayload options clientId := by
  unfold connectBody protocolName protocolLevel connectPayload
  split <;> simp [stringBytes, mqttWriteUtf8String, mqttWriteUint16]

theorem grammarOptional_written {flag : Bool} {string : Option CString}
    (announced : flag = string.isSome)
    (short : ∀ text, string = some text → text.bytes.length < 2 ^ 16)
    (rest : List UInt8) :
    grammarOptional flag (optionalString string ++ rest) =
      some (string.map CString.bytes, rest) := by
  cases string with
  | none => rw [announced]; rfl
  | some text =>
      have read := grammarString_inverts.complete text.bytes rest
        (short text rfl)
      rw [announced, optionalString, mqttWriteUtf8String]
      unfold grammarOptional
      rw [Option.isSome_some, if_pos rfl]
      unfold stringBytes at read
      rw [read]
      rfl

/-- Options the encoding of which says what they say. -/
structure MQTTConnectParams.Encodable (options : MQTTConnectParams)
    (clientId : CString) : Prop where
  version : options.mqttVersion = 3 ∨ options.mqttVersion = 4
  password : options.password.isSome
  shortClientId : clientId.bytes.length < 2 ^ 16
  shortUsername : ∀ text, options.username = some text →
    text.bytes.length < 2 ^ 16
  shortPassword : ∀ text, options.password = some text →
    text.bytes.length < 2 ^ 16

/-- What the options ask for. -/
def MQTTConnectParams.request (options : MQTTConnectParams)
    (clientId : CString) : ConnectRequest where
  clientId := clientId.bytes
  will := none
  username := options.username.map CString.bytes
  password := options.password.map CString.bytes
  keepAlive := options.keepAliveInterval
  cleanSession := options.cleanSession ≠ 0

theorem grammarConnectPayload_written {options : MQTTConnectParams}
    {clientId : CString} (encodable : options.Encodable clientId) :
    grammarConnectPayload (connectFlags options) options.keepAliveInterval
        (connectPayload options clientId) =
      some (options.request clientId) := by
  obtain ⟨-, noWill, noWillFlags⟩ := connectFlags_reserved options
  have client := grammarString_inverts.complete clientId.bytes
    (optionalString options.username ++ optionalString options.password)
    encodable.shortClientId
  have will : grammarWill (connectFlags options)
      (optionalString options.username ++ optionalString options.password) =
      some (none, optionalString options.username ++
        optionalString options.password) := by
    rw [grammarWill, if_pos noWill, if_pos noWillFlags]
  have username := grammarOptional_written
    (show decide (connectFlags options &&& 0x80 ≠ 0) =
        options.username.isSome by
      rw [Bool.eq_iff_iff, decide_eq_true_iff]
      exact connectFlags_username options)
    encodable.shortUsername (optionalString options.password)
  have password := grammarOptional_written
    (show decide (connectFlags options &&& 0x40 ≠ 0) =
        options.password.isSome by
      rw [decide_eq_true (connectFlags_password options), encodable.password])
    encodable.shortPassword []
  rw [List.append_nil] at password
  have clean : decide (connectFlags options &&& 0x02 ≠ 0) =
      decide (options.cleanSession ≠ 0) :=
    decide_eq_decide.mpr (connectFlags_clean options)
  unfold grammarConnectPayload connectPayload
  rw [client]
  dsimp only
  rw [will]
  dsimp only
  rw [username]
  dsimp only
  rw [password]
  dsimp only
  rw [clean]
  rfl

theorem grammarString_connectBody (options : MQTTConnectParams)
    (clientId : CString) :
    grammarString (connectBody options clientId) =
      some ((protocolName options).bytes,
        protocolLevel options :: connectFlags options ::
          (options.keepAliveInterval / 256).toUInt8 ::
          (options.keepAliveInterval % 256).toUInt8 ::
          connectPayload options clientId) := by
  rw [connectBody_eq]
  exact grammarString_inverts.complete _ _ (protocolName_short options)

theorem grammarConnectBody_written {options : MQTTConnectParams}
    {clientId : CString} (encodable : options.Encodable clientId) :
    grammarConnectBody (connectBody options clientId) =
      some (options.request clientId) := by
  unfold grammarConnectBody
  rw [grammarString_connectBody]
  dsimp only
  rw [if_pos ⟨knownProtocol_written options,
      (connectFlags_reserved options).1⟩,
    numberOf_written, UInt16.ofNat_toNat]
  exact grammarConnectPayload_written encodable

/-! ## The encoding -/

/-- A packet says what the options ask for: its Remaining Length counts what
follows the fixed header, and the flags announce the strings that are there. -/
structure ConnectEncoded (options : MQTTConnectParams) (clientId : CString)
    (packet : List UInt8) : Prop where
  counts : (grammarFrame packet).isSome
  flags : ∃ flags, grammarFlags packet = some flags ∧
    (flags &&& 0x80 ≠ 0 ↔ options.username.isSome) ∧
    (flags &&& 0x40 ≠ 0 ↔ options.password.isSome)
  parses : grammarConnect packet = some (options.request clientId)

theorem length_connectBody (options : MQTTConnectParams)
    (clientId : CString) :
    (connectBody options clientId).length =
      (protocolName options).bytes.length + 8 + clientId.bytes.length +
        optionalStringLen options.username +
        optionalStringLen options.password := by
  simp [connectBody_eq, connectPayload, stringBytes, mqttWriteUint16,
    length_optionalString]
  omega

theorem optionalStringLen_short (string : Option CString)
    (short : ∀ text, string = some text → text.bytes.length < 2 ^ 16) :
    optionalStringLen string < 2 ^ 16 + 2 := by
  cases string with
  | none => decide
  | some text => exact Nat.add_lt_add_right (short text rfl) 2

/-- Strings no longer than their length fields count make a small packet. -/
theorem connectBody_small {options : MQTTConnectParams} {clientId : CString}
    (short : (options.request clientId).Short) :
    (connectBody options clientId).length < 2 ^ 20 := by
  have name : (protocolName options).bytes.length ≤ 6 := by
    unfold protocolName
    split <;> decide
  have username := optionalStringLen_short options.username
    fun text present => short.username text.bytes (by
      rw [MQTTConnectParams.request, present]; rfl)
  have password := optionalStringLen_short options.password
    fun text present => short.password text.bytes (by
      rw [MQTTConnectParams.request, present]; rfl)
  have client : clientId.bytes.length < 2 ^ 16 := short.clientId
  rw [length_connectBody]
  omega

/-- What the serialiser writes where it accepts the options. -/
theorem serializeConnectPacket_written {buf memory : Memory} {bufLen len : Nat}
    {options : MQTTConnectParams} {clientId : CString}
    (present : options.clientId = some clientId)
    (named : clientId.bytes ≠ [])
    (accepted : serializeConnectPacket buf bufLen options =
      .ok (memory, len)) :
    (memory, len) = serialized buf
      (packetBytes 0x10 (getPacketConnectRemLen options clientId)
        (connectBody options clientId)) := by
  unfold serializeConnectPacket at accepted
  rw [present] at accepted
  dsimp only at accepted
  rw [if_neg named] at accepted
  split at accepted
  · exact absurd accepted nofun
  · exact (Except.ok.inj accepted).symm

/-- The packet read back, for strings that are short. -/
theorem slice_serialized_connect {buf memory : Memory} {len : Nat}
    {options : MQTTConnectParams} {clientId : CString}
    (short : (options.request clientId).Short)
    (written : (memory, len) = serialized buf
      (packetBytes 0x10 (getPacketConnectRemLen options clientId)
        (connectBody options clientId))) :
    memory.slice 0 len =
      packetBytes 0x10 (getPacketConnectRemLen options clientId)
        (connectBody options clientId) := by
  obtain ⟨rfl, rfl⟩ := Prod.mk.inj written
  have small := connectBody_small short
  have remLen : (mqttWritePacketRemLen
      (getPacketConnectRemLen options clientId)).length ≤ 5 := by
    rw [length_mqttWritePacketRemLen]
    split_ifs <;> decide
  have length : (packetBytes 0x10 (getPacketConnectRemLen options clientId)
      (connectBody options clientId)).length < 2 ^ 32 := by
    simp only [packetBytes, List.length_cons, List.length_append]
    omega
  rw [Nat.mod_eq_of_lt length]
  exact Memory.slice_write_same buf 0 _

theorem MQTTConnectParams.Encodable.short {options : MQTTConnectParams}
    {clientId : CString} (encodable : options.Encodable clientId) :
    (options.request clientId).Short where
  clientId := encodable.shortClientId
  username := by
    intro text same
    obtain ⟨string, present, rfl⟩ := Option.map_eq_some_iff.mp same
    exact encodable.shortUsername string present
  password := by
    intro text same
    obtain ⟨string, present, rfl⟩ := Option.map_eq_some_iff.mp same
    exact encodable.shortPassword string present

/-- The Remaining Length of short strings counts the body when the version is
known. -/
theorem getPacketConnectRemLen_counts_iff {options : MQTTConnectParams}
    {clientId : CString} (short : (options.request clientId).Short) :
    getPacketConnectRemLen options clientId =
        (connectBody options clientId).length ↔
      options.mqttVersion = 3 ∨ options.mqttVersion = 4 := by
  have small := connectBody_small short
  have long : 8 ≤ (connectBody options clientId).length := by
    rw [length_connectBody]
    omega
  rw [getPacketConnectRemLen_eq_mod]
  constructor
  · intro counts
    by_contra unknown
    rw [if_neg unknown] at counts
    omega
  · intro known
    rw [if_pos known]
    omega

theorem grammarFlags_written {options : MQTTConnectParams}
    {clientId : CString}
    (small : (connectBody options clientId).length ≤ maxRemLen) :
    grammarFlags (packetBytes 0x10 (connectBody options clientId).length
        (connectBody options clientId)) =
      some (connectFlags options) := by
  unfold grammarFlags
  rw [grammarFrame_written small]
  dsimp only
  rw [grammarString_connectBody]

/-- An accepted CONNECT says what its options ask for exactly when the protocol
version is known, there is a password, and every string is as short as its
length field can tell. -/
theorem serializeConnectPacket_encoded_iff {buf memory : Memory}
    {bufLen len : Nat} {options : MQTTConnectParams} {clientId : CString}
    (present : options.clientId = some clientId)
    (named : clientId.bytes ≠ [])
    (accepted : serializeConnectPacket buf bufLen options =
      .ok (memory, len)) :
    ConnectEncoded options clientId (memory.slice 0 len) ↔
      options.Encodable clientId := by
  have written := serializeConnectPacket_written present named accepted
  constructor
  · intro encoded
    have short := grammarConnect_short encoded.parses
    have small := connectBody_small short
    have packet := slice_serialized_connect short written
    rw [packet] at encoded
    have remLen : getPacketConnectRemLen options clientId ≤ maxRemLen := by
      rw [getPacketConnectRemLen_eq_mod, maxRemLen]
      split_ifs <;> omega
    obtain ⟨⟨header, body⟩, frame⟩ :=
      Option.isSome_iff_exists.mp encoded.counts
    have counts := (grammarFrame_length remLen frame).1
    obtain ⟨flags, read, -, password⟩ := encoded.flags
    rw [counts, grammarFlags_written (by rw [← counts]; exact remLen)] at read
    rw [← Option.some.inj read] at password
    exact {
      version := (getPacketConnectRemLen_counts_iff short).mp counts
      password := password.mp (connectFlags_password options)
      shortClientId := short.clientId
      shortUsername := fun text present => short.username text.bytes (by
        rw [MQTTConnectParams.request, present]; rfl)
      shortPassword := fun text present => short.password text.bytes (by
        rw [MQTTConnectParams.request, present]; rfl) }
  · intro encodable
    have short := encodable.short
    have small : (connectBody options clientId).length ≤ maxRemLen :=
      Nat.le_trans (Nat.le_of_lt (connectBody_small short)) (by decide)
    have counts :=
      (getPacketConnectRemLen_counts_iff short).mpr encodable.version
    rw [slice_serialized_connect short written, counts]
    have frame : grammarFrame (packetBytes 0x10
        (connectBody options clientId).length
        (connectBody options clientId)) =
        some (0x10, connectBody options clientId) :=
      grammarFrame_written small
    refine ⟨?_, ⟨_, grammarFlags_written small,
      connectFlags_username options, ?_⟩, ?_⟩
    · rw [frame]
      rfl
    · exact iff_of_true (connectFlags_password options) encodable.password
    · rw [grammarConnect, frame]
      exact grammarConnectBody_written encodable

/-- Options of a client called `a`. -/
def sampleOptions (password : Option CString) : MQTTConnectParams where
  clientId := some ⟨[97], CString.zero_not_mem_a⟩
  username := none
  password := password
  mqttVersion := 4
  keepAliveInterval := 60
  cleanSession := 1
  autoConnectEnable := 0

theorem serializeConnectPacket_encoded_iff_secret :
    ConnectEncoded (sampleOptions (some ⟨[98], by decide⟩)) ⟨[97], by decide⟩
      ((serialized (fun _ => 0) (packetBytes 0x10 16
        (connectBody (sampleOptions (some ⟨[98], by decide⟩))
          ⟨[97], by decide⟩))).1.slice 0 18) := by
  have accepted : serializeConnectPacket (fun _ => 0) 64
      (sampleOptions (some ⟨[98], by decide⟩)) =
      .ok ((serialized (fun _ => 0) (packetBytes 0x10 16
        (connectBody (sampleOptions (some ⟨[98], by decide⟩))
          ⟨[97], by decide⟩))).1, 18) := rfl
  refine (serializeConnectPacket_encoded_iff rfl (by decide) accepted).mpr
    ⟨Or.inr rfl, rfl, by decide, nofun, ?_⟩
  intro text same
  rw [← Option.some.inj same]
  decide

/-- Without a password the flags announce one all the same, and nothing can be
read behind the client identifier. -/
theorem connectWithoutPassword_broken :
    serializeConnectPacket (fun _ => 0) 64 (sampleOptions none) =
        .ok (serialized (fun _ => 0)
          (packetBytes 0x10 13 (connectBody (sampleOptions none)
            ⟨[97], by decide⟩))) ∧
      ¬ConnectEncoded (sampleOptions none) ⟨[97], by decide⟩
        ((serialized (fun _ => 0) (packetBytes 0x10 13
          (connectBody (sampleOptions none) ⟨[97], by decide⟩))).1.slice
            0 15) := by
  refine ⟨rfl, fun encoded => ?_⟩
  have parses := encoded.parses
  revert parses
  decide

end Mqtt
end UIoT
