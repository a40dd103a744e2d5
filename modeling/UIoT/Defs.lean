import Mathlib.Algebra.Group.Int.Defs
import Mathlib.Algebra.Group.Nat.Defs
import Mathlib.Data.List.Basic
import Mathlib.Data.List.TakeWhile

/-!
# Common definitions of the SDK

Return codes, the enumerations of the MQTT client, its compile-time limits, text
as the source writes it and the byte memory the packet code reads and writes.
-/

namespace UIoT

/-- `IoT_Error_t`: the return codes of the modelled functions. -/
inductive IoTError
  | mqttAlreadyConnected
  | mqttConnectionAccepted
  | mqttManuallyDisconnected
  | mqttReconnected
  | successRet
  | failureRet
  | errParamInvalid
  | errHttpClosed
  | errHttpUnknownError
  | errHttpProtocolError
  | errHttpUnresolvedDns
  | errHttpUrlParseError
  | errHttpConnError
  | errHttpAuthError
  | errHttpNotFound
  | errHttpTimeout
  | errMqttPushToListFailed
  | errMqttNoConn
  | errMqttUnknownError
  | errMqttAttemptingReconnect
  | errMqttReconnectTimeout
  | errMqttMaxSubscriptionsReached
  | errMqttSubFailed
  | errMqttNothingToRead
  | errMqttPacketReadError
  | errMqttRequestTimeout
  | errMqttConnackUnknown
  | errMqttConnackUnacceptableProtocolVersion
  | errMqttConnackIdentifierRejected
  | errMqttConnackServerUnavailable
  | errMqttConnackBadUserdata
  | errMqttConnackNotAuthorized
  | errMqttRxMessagePacketTypeInvalid
  | errMqttBufferTooShort
  | errMqttQosNotSupport
  | errMqttUnsubFailed
  | errJsonBufferTruncated
  | errJsonBufferTooSmall
  | errJson
  | errMaxAppendingRequest
  | errMaxTopicLength
  | errShadowPropertyExist
  | errShadowNotPropertyExist
  | errOtaGeneralFailure
  | errOtaInvalidParam
  | errOtaInvalidState
  | errOtaStrTooLong
  | errOtaFetchFailed
  | errOtaFileNotExist
  | errOtaFetchAuthFail
  | errOtaFetchTimeout
  | errOtaNoMemory
  | errOtaOscFailed
  | errOtaMd5Mismatch
  | errTcpReadFailed
  | errTcpWriteFailed
  | errTcpPeerShutdown
  | errSslReadTimeout
  | errSslReadFailed
  | errSslWriteFailed
  deriving DecidableEq, Repr

/-- The return codes below zero. -/
def IoTError.negative : IoTError → Bool
  | mqttAlreadyConnected | mqttConnectionAccepted | mqttManuallyDisconnected
  | mqttReconnected | successRet => false
  | _ => true

/-- Negative results of the network read and write primitives. -/
inductive NetError
  | failureRet
  | errTcpReadFailed
  | errTcpWriteFailed
  | errTcpPeerShutdown
  | errSslReadTimeout
  | errSslReadFailed
  | errSslWriteFailed
  deriving DecidableEq, Repr

/-- The return code of a failed read or write. -/
def NetError.ret : NetError → IoTError
  | failureRet => .failureRet
  | errTcpReadFailed => .errTcpReadFailed
  | errTcpWriteFailed => .errTcpWriteFailed
  | errTcpPeerShutdown => .errTcpPeerShutdown
  | errSslReadTimeout => .errSslReadTimeout
  | errSslReadFailed => .errSslReadFailed
  | errSslWriteFailed => .errSslWriteFailed

/-- `QoS`: the service levels a caller can ask for. -/
inductive QoS
  | qos0
  | qos1
  | qos2
  deriving DecidableEq, Repr

namespace QoS

/-- The two header bits of a service level. -/
def bits : QoS → UInt8
  | qos0 => 0
  | qos1 => 1
  | qos2 => 2

end QoS

/-- `MessageTypes`: the MQTT control packet types. -/
inductive MessageTypes
  | reserved
  | connect
  | connack
  | publish
  | puback
  | pubrec
  | pubrel
  | pubcomp
  | subscribe
  | suback
  | unsubscribe
  | unsuback
  | pingreq
  | pingresp
  | disconnect
  deriving DecidableEq, Repr

namespace MessageTypes

/-- The value of the enumerator, and of the high nibble of the header. -/
def code : MessageTypes → UInt8
  | reserved => 0
  | connect => 1
  | connack => 2
  | publish => 3
  | puback => 4
  | pubrec => 5
  | pubrel => 6
  | pubcomp => 7
  | subscribe => 8
  | suback => 9
  | unsubscribe => 10
  | unsuback => 11
  | pingreq => 12
  | pingresp => 13
  | disconnect => 14

end MessageTypes

/-! ## Strings -/

/-- The bytes of a string up to its terminating zero. -/
structure CString where
  bytes : List UInt8
  zero_not_mem : 0 ∉ bytes
  deriving DecidableEq

namespace CString

/-- The string as an array with its terminator and whatever lies behind. -/
def ofArray (array : List UInt8) : CString where
  bytes := array.takeWhile (· ≠ 0)
  zero_not_mem := by
    intro mem
    simpa using List.mem_takeWhile_imp mem

/-- The string from one of its bytes on. -/
def drop (text : CString) (count : Nat) : CString where
  bytes := text.bytes.drop count
  zero_not_mem := fun mem => text.zero_not_mem (List.mem_of_mem_drop mem)

@[simp] theorem drop_zero (text : CString) : text.drop 0 = text := rfl

@[ext] theorem ext {first second : CString}
    (bytes : first.bytes = second.bytes) :
    first = second := by
  cases first
  cases second
  cases bytes
  rfl

/-- An array that holds a string and its terminator reads as that string. -/
@[simp] theorem ofArray_terminated (text : CString) (rest : List UInt8) :
    ofArray (text.bytes ++ 0 :: rest) = text := by
  ext1
  have nonzero : ∀ byte ∈ text.bytes, decide (byte ≠ 0) = true := by
    intro byte mem
    rw [decide_eq_true_iff]
    rintro rfl
    exact text.zero_not_mem mem
  change (text.bytes ++ 0 :: rest).takeWhile (· ≠ 0) = text.bytes
  rw [List.takeWhile_append_of_pos nonzero]
  simp

/-! The one- and two-letter texts of samples. -/

theorem zero_not_mem_a : (0 : UInt8) ∉ [97] := by decide

theorem zero_not_mem_b : (0 : UInt8) ∉ [98] := by decide

theorem zero_not_mem_ab : (0 : UInt8) ∉ [97, 98] := by decide

end CString

/-- The bytes of a text in the source. -/
def ascii (text : String) : List UInt8 :=
  text.toList.map fun char => UInt8.ofNat char.toNat

/-- A property of every byte of a text is decided along the text, and not by
a search through all the bytes there are. -/
instance (priority := high) decidableForallBytes {p : UInt8 → Prop}
    [DecidablePred p] (bytes : List UInt8) :
    Decidable (∀ byte ∈ bytes, p byte) :=
  List.decidableBAll p bytes

/-- What `%d` and its kind print. -/
def decimal (value : Int) : List UInt8 := ascii (toString value)

/-! ## Limits -/

/-- `UIOT_MQTT_TX_BUF_LEN` -/
def uiotMqttTxBufLen : Nat := 2048

/-- `UIOT_MQTT_RX_BUF_LEN` -/
def uiotMqttRxBufLen : Nat := 2048

/-- `MAX_PACKET_ID` -/
def maxPacketId : UInt16 := 65535

/-- `MAX_SUB_TOPICS` -/
def maxSubTopics : Nat := 10

/-- `MAX_REPUB_NUM` -/
def maxRepubNum : Nat := 20

/-- `MIN_RECONNECT_WAIT_INTERVAL`, in milliseconds. -/
def minReconnectWaitInterval : Nat := 1000

/-- `MAX_RECONNECT_WAIT_INTERVAL`, in milliseconds. -/
def maxReconnectWaitInterval : Nat := 60 * 1000

/-- `MIN_COMMAND_TIMEOUT`, in milliseconds. -/
def minCommandTimeout : Nat := 500

/-- `MAX_COMMAND_TIMEOUT`, in milliseconds. -/
def maxCommandTimeout : Nat := 5000

/-- `MAX_SIZE_OF_CLOUD_TOPIC` -/
def maxSizeOfCloudTopic : Nat := 128

/-- `MAX_NO_OF_REMAINING_LENGTH_BYTES` -/
def maxNoOfRemainingLengthBytes : Nat := 4

/-- `MQTT_PING_RETRY_TIMES` -/
def mqttPingRetryTimes : Nat := 2

/-! ## Memory -/

/-- The bytes from a buffer's first one on.  Bytes past the end of the buffer
are whatever else lies there in memory. -/
abbrev Memory := Nat → UInt8

namespace Memory

/-- `memcpy` into the buffer. -/
def write (memory : Memory) (offset : Nat) (bytes : List UInt8) : Memory :=
  fun address =>
    if offset ≤ address then
      (bytes[address - offset]?).getD (memory address)
    else
      memory address

/-- The bytes of a slice. -/
def slice (memory : Memory) (offset length : Nat) : List UInt8 :=
  (List.range length).map fun index => memory (offset + index)

@[simp] theorem length_slice (memory : Memory) (offset length : Nat) :
    (memory.slice offset length).length = length := by
  simp [slice]

@[simp] theorem slice_zero (memory : Memory) (offset : Nat) :
    memory.slice offset 0 = [] := rfl

/-- A slice starts with its first byte. -/
theorem slice_succ (memory : Memory) (offset length : Nat) :
    memory.slice offset (length + 1) =
      memory offset :: memory.slice (offset + 1) length := by
  simp only [slice, List.range_succ_eq_map, List.map_cons, Nat.add_zero,
    List.map_map, List.cons.injEq, true_and]
  apply List.map_congr_left
  intro index _
  simp [Nat.add_assoc, Nat.add_comm 1]

/-- A slice splits at any point. -/
theorem slice_add (memory : Memory) (offset first second : Nat) :
    memory.slice offset (first + second) =
      memory.slice offset first ++ memory.slice (offset + first) second := by
  simp [slice, List.range_add, List.map_map, Function.comp_def, Nat.add_assoc]

@[simp] theorem write_nil (memory : Memory) (offset : Nat) :
    memory.write offset [] = memory := by
  funext address
  simp [write]

/-- Reading back what was written. -/
theorem slice_write_same (memory : Memory) (offset : Nat) (bytes : List UInt8) :
    (memory.write offset bytes).slice offset bytes.length = bytes := by
  apply List.ext_getElem
  · simp
  · intro index inSlice inBytes
    simp [slice, write, inBytes]

/-- A write leaves the bytes before it alone. -/
theorem slice_write_before (memory : Memory) {offset length target : Nat}
    (bytes : List UInt8) (before : offset + length ≤ target) :
    (memory.write target bytes).slice offset length =
      memory.slice offset length := by
  simp only [slice]
  apply List.map_congr_left
  intro index inRange
  have below : index < length := List.mem_range.mp inRange
  simp only [write]
  rw [if_neg (by omega)]

end Memory

/-- `(size_t) (end - start)` of two pointers into one buffer, on a target with
64-bit `size_t`: a negative difference wraps. -/
def sizeOfPtrDiff (finish start : Nat) : Nat :=
  (((finish : Int) - start) % 2 ^ 64).toNat

theorem sizeOfPtrDiff_of_le {finish start : Nat}
    (ordered : start ≤ finish) (small : finish < 2 ^ 64) :
    sizeOfPtrDiff finish start = finish - start := by
  unfold sizeOfPtrDiff
  omega

end UIoT
