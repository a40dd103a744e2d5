import UIoT.Mqtt.PacketFormat

/-!
# Reading one packet from the network

`_read_mqtt_packet` reads the header byte, the Remaining Length byte by byte
and the body, or discards the body of a packet the read buffer cannot hold.
The network read primitive may hand out fewer bytes than it was asked for, as
it does when its timeout ends with only part of them there.  The timeouts
themselves only bound how long a read waits; what they leave undelivered is
part of the outcome of the read.
-/

namespace UIoT
namespace Mqtt

/-- Outcome of one call of the read primitive: at most so many of the bytes
asked for arrive before its timeout, or it fails. -/
inductive ReadOutcome
  | bytes (count : Nat)
  | failure (error : NetError)
  deriving DecidableEq, Repr

/-- The bytes handed out by one read of at most `len` bytes. -/
def ReadOutcome.deliver (outcome : ReadOutcome) (stream : List UInt8)
    (len : Nat) : Except NetError (List UInt8) :=
  match outcome with
  | bytes count => .ok (stream.take (min count len))
  | failure error => .error error

/-- The receiving side of a connection: the bytes that are still to be read
and the outcomes of the next reads.  Every read after those times out with
nothing. -/
structure NetIn where
  stream : List UInt8
  reads : List ReadOutcome
  deriving DecidableEq, Repr

/-- `network_stack.read` -/
def NetIn.read (net : NetIn) (len : Nat) :
    NetIn × Except NetError (List UInt8) :=
  match net.reads with
  | [] => (net, .ok [])
  | outcome :: reads =>
      match outcome.deliver net.stream len with
      | .ok got => (⟨net.stream.drop got.length, reads⟩, .ok got)
      | .error error => (⟨net.stream, reads⟩, .error error)

/-- One byte of the Remaining Length; a timeout counts as a failure. -/
def NetIn.readChar (net : NetIn) : NetIn × Except IoTError UInt8 :=
  match net.read 1 with
  | (net, .ok (byte :: _)) => (net, .ok byte)
  | (net, _) => (net, .error .failureRet)

/-- `_decode_packet_rem_len_with_net_read` -/
def decodePacketRemLenWithNetRead (net : NetIn) : NetIn × Except IoTError Nat :=
  ContinuationCode.decode NetIn.readChar .errMqttPacketReadError
    maxNoOfRemainingLengthBytes 1 0 net

/-- The loop that reads the body of an oversized packet in pieces of at most
the buffer size and throws them away. -/
def discardLoop (readBufSize remLen : Nat) :
    (reads : List ReadOutcome) → (stream : List UInt8) → (readBuf : Memory) →
      (totalBytesRead bytesToBeRead : Nat) → NetIn × Memory
  | [], stream, readBuf, _, _ => (⟨stream, []⟩, readBuf)
  | outcome :: reads, stream, readBuf, totalBytesRead, bytesToBeRead =>
      match outcome.deliver stream bytesToBeRead with
      | .ok (byte :: more) =>
          let got := byte :: more
          let total := totalBytesRead + got.length
          let bytesToBeRead :=
            if remLen - total ≥ readBufSize then readBufSize
            else remLen - total
          if total < remLen then
            discardLoop readBufSize remLen reads (stream.drop got.length)
              (readBuf.write 0 got) total bytesToBeRead
          else
            (⟨stream.drop got.length, reads⟩, readBuf.write 0 got)
      | _ => (⟨stream, reads⟩, readBuf)

/-- What a call of `_read_mqtt_packet` leaves behind. -/
structure ReadResult where
  net : NetIn
  readBuf : Memory
  ret : Except IoTError UInt8

/-- The part of `_read_mqtt_packet` behind the Remaining Length. -/
def readPacketBody (readBufSize : Nat) (readBuf : Memory) (net : NetIn)
    (remLen : Nat) : ReadResult :=
  if remLen ≥ readBufSize then
    let (net, readBuf) :=
      discardLoop readBufSize remLen net.reads net.stream readBuf 0 readBufSize
    ⟨net, readBuf, .error .errMqttBufferTooShort⟩
  else
    let lengthBytes := mqttWritePacketRemLen remLen
    let readBuf := readBuf.write 1 lengthBytes
    let len := 1 + lengthBytes.length
    if remLen > 0 ∧ len + remLen > readBufSize then
      -- one read only: whatever it returns, the packet is reported too long
      match net.read remLen with
      | (net, .ok got) =>
          ⟨net, readBuf.write 0 got, .error .errMqttBufferTooShort⟩
      | (net, .error _) => ⟨net, readBuf, .error .errMqttBufferTooShort⟩
    else if remLen > 0 then
      match net.read remLen with
      | (net, .error error) => ⟨net, readBuf, .error error.ret⟩
      | (net, .ok []) => ⟨net, readBuf, .error .errMqttNothingToRead⟩
      | (net, .ok (byte :: more)) =>
          -- any positive count is taken for the whole body
          let readBuf := readBuf.write len (byte :: more)
          ⟨net, readBuf, .ok (headerType (readBuf 0))⟩
    else
      ⟨net, readBuf, .ok (headerType (readBuf 0))⟩

/-- `_read_mqtt_packet` -/
def readMqttPacket (readBufSize : Nat) (readBuf : Memory) (net : NetIn) :
    ReadResult :=
  match net.read 1 with
  | (net, .error error) => ⟨net, readBuf, .error error.ret⟩
  | (net, .ok []) => ⟨net, readBuf, .error .errMqttNothingToRead⟩
  | (net, .ok (header :: more)) =>
      let readBuf := readBuf.write 0 (header :: more)
      match decodePacketRemLenWithNetRead net with
      | (net, .error ret) => ⟨net, readBuf, .error ret⟩
      | (net, .ok remLen) => readPacketBody readBufSize readBuf net remLen

end Mqtt
end UIoT
