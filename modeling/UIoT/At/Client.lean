import Mathlib.Data.List.Infix
import UIoT.At.Reader

/-!
# The AT client

`at_client.c`: `at_recv_readline` reads a line, `client_parser` collects the
lines that answer a command for at most a second, and `at_obj_exec_cmd` sends
the command and calls the parser until the answer is complete or its time is
over.
-/

namespace UIoT
namespace At

/-! ## Data -/

/-- `GET_CHAR_TIMEOUT_MS` -/
def getCharTimeoutMs : Nat := 100

/-- `CMD_RESPONSE_INTERVAL_MS` -/
def cmdResponseIntervalMs : Nat := 1000

/-- `at_resp_status_t` -/
inductive RespStatus
  | ok
  | error
  | timeout
  | buffFull
  deriving DecidableEq, Repr

/-- `at_custom`: how lines are recognised that the module sends of itself. -/
structure AtCustom where
  cmd : List UInt8
  minlen : Nat
  judge : List UInt8 → Bool
  func : Option (List UInt8 → Bool)

/-- `at_client`, as far as a command does not change it, with what
`at_get_last_cmd` returns. -/
structure AtClient where
  endSign : UInt8
  recvBufsz : Nat
  urcTable : Option (List AtCustom)
  sendBuf : List UInt8

/-- `at_response` -/
structure AtResponse where
  buf : Memory
  bufSize : Nat
  lineNum : Nat
  lineCounts : Nat
  customFlag : Bool
  timeout : Nat

/-- What a command changes: its response object, whether `client->resp` still
points to it, and the state of the client. -/
structure Command where
  resp : AtResponse
  attached : Bool
  respStatus : RespStatus
  respNotice : Bool

/-! ## Lines -/

/-- `get_urc_obj`, with what has been received of a line. -/
def getUrcObj (client : AtClient) (received : List UInt8) : Option AtCustom :=
  match client.urcTable with
  | none => none
  | some table =>
      table.find? fun urc =>
        urc.minlen ≤ received.length && urc.cmd.isPrefixOf client.sendBuf &&
          urc.judge received

/-- A newline, the end sign or a line that is recognised. -/
def lineEnds (client : AtClient) (received : List UInt8) (ch lastCh : UInt8) :
    Bool :=
  ch = 10 && lastCh = 13 || client.endSign ≠ 0 && ch = client.endSign ||
    (getUrcObj client received).isSome

/-- The value of `ERR_TCP_NOTHING_TO_READ`. -/
def errTcpNothingToRead : Int := -609

/-- The value of `FAILURE_RET`. -/
def failureRet : Int := -1

/-- What `at_recv_readline` returns and leaves in `recv_buffer`, which is zero
behind it. -/
structure ReadLine where
  ret : Int
  received : List UInt8
  uart : Uart

/-- The loop of `at_recv_readline`, with its variables `is_full`, `last_ch` and
`ch`. -/
def readlineLoop (hal : HalTimer) (client : AtClient) :
    (turns : Nat) → (received : List UInt8) → (isFull : Bool) →
      (lastCh ch : UInt8) → Uart → Option ReadLine
  | 0, _, _, _, _, _ => none
  | turns + 1, received, isFull, lastCh, ch, uart => do
      let done ← atClientGetchar hal uart ch getCharTimeoutMs
      if done.ret ≠ .successRet then
        some ⟨errTcpNothingToRead, received, done.uart⟩
      else
        let room := received.length < client.recvBufsz
        let received := if room then received ++ [done.pch] else received
        let isFull := if room then isFull else true
        if lineEnds client received done.pch lastCh then
          if isFull then
            some ⟨failureRet, [],
              { done.uart with ring := ringBuffFlush done.uart.ring }⟩
          else some ⟨received.length, received, done.uart⟩
        else
          readlineLoop hal client turns received isFull done.pch done.pch
            done.uart

namespace Uart

/-- The bytes that are there or still to come. -/
def stream (uart : Uart) : List UInt8 := uart.ring.stored ++ uart.toCome

end Uart

/-- `at_recv_readline`.  Each turn of its loop but the last takes a byte of the
stream. -/
def atRecvReadline (hal : HalTimer) (client : AtClient) (uart : Uart) :
    Option ReadLine :=
  readlineLoop hal client (uart.stream.length + 1) [] false 0 0 uart

/-! ## Responses -/

/-- The line with its last byte made a zero. -/
def terminated (line : List UInt8) : List UInt8 := line.dropLast ++ [0]

/-- The tests whether a line ends the response, and how: the first lines of the
conditions look at the array, `strstr` at the string in it. -/
def endsResponse (resp : AtResponse) (lineCounts : Nat) (line : List UInt8) :
    Option RespStatus :=
  let text := (CString.ofArray line).bytes
  if ascii "OK" <+: line ∧ resp.lineNum = 0 ∧ resp.customFlag = false then
    some .ok
  else if ascii "ERROR" <:+: text ∨ ascii "FAIL" <+: line then some .error
  else if ascii "DATA ACCEPT:" <:+: text ∨ ascii "SEND OK" <:+: text then
    some .ok
  else if lineCounts = resp.lineNum ∧ resp.lineNum ≠ 0 then some .ok
  else none

/-- The local variables of `client_parser` and what it works on. -/
structure Parser where
  respBufLen : Nat
  lineCounts : Nat
  command : Command

/-- `client->resp->buf` gets a line, if it has room for it. -/
def collect (parser : Parser) (line : List UInt8) : Parser :=
  let resp := parser.command.resp
  if parser.respBufLen + line.length < resp.bufSize then
    { respBufLen := parser.respBufLen + line.length
      lineCounts := parser.lineCounts + 1
      command :=
        { parser.command with
          resp := { resp with buf := resp.buf.write parser.respBufLen line } } }
  else
    { parser with
      command := { parser.command with respStatus := .buffFull } }

/-- What `client_parser` makes of a line: it leaves its loop or goes on. -/
inductive Turn
  | leave (command : Command)
  | stay (parser : Parser)

/-- The body of the loop of `client_parser`, for a line that was read. -/
def handleLine (client : AtClient) (received : List UInt8) (parser : Parser) :
    Turn :=
  match getUrcObj client received with
  | some urc =>
      let respStatus :=
        match urc.func with
        | none => parser.command.respStatus
        | some func => if func received then .ok else .error
      .leave { parser.command with respStatus, respNotice := true }
  | none =>
      if parser.command.attached then
        let line := terminated received
        let parser := collect parser line
        match endsResponse parser.command.resp parser.lineCounts line with
        | none => .stay parser
        | some respStatus =>
            .leave
              { resp :=
                  { parser.command.resp with lineCounts := parser.lineCounts }
                attached := false
                respStatus
                respNotice := true }
      else .stay parser

/-- The loop of `client_parser`. -/
def parserLoop (hal : HalTimer) (client : AtClient) (endTime : Nat) :
    (turns : Nat) → Parser → Uart → Option (Command × Uart)
  | 0, _, _ => none
  | turns + 1, parser, uart => do
      let done ← atRecvReadline hal client uart
      let turn :=
        if 0 < done.ret then handleLine client done.received parser
        else .stay parser
      match turn with
      | .leave command => some (command, done.uart)
      | .stay parser =>
          let tested := done.uart.elapse 0
          if hal.expired endTime tested.now then some (parser.command, tested)
          else parserLoop hal client endTime turns parser tested

/-- `client_parser`.  Each turn of its loop takes a byte of the stream or some
time. -/
def clientParser (hal : HalTimer) (client : AtClient) (command : Command)
    (uart : Uart) : Option (Command × Uart) :=
  let started := uart.elapse 0
  parserLoop hal client (started.now + cmdResponseIntervalMs)
    (started.stream.length + cmdResponseIntervalMs + 1) ⟨0, 0, command⟩ started

/-! ## Commands -/

/-- What `at_obj_exec_cmd` returns. -/
structure Executed where
  ret : Ret
  command : Command
  uart : Uart

/-- The end of `at_obj_exec_cmd` when its loop is left without an error. -/
def testTimeout (hal : HalTimer) (endTime : Nat) (command : Command)
    (uart : Uart) : Executed :=
  let tested := uart.elapse 0
  if hal.expired endTime tested.now then
    ⟨.failureRet, { command with respStatus := .timeout }, tested⟩
  else ⟨.successRet, command, tested⟩

/-- The loop of `at_obj_exec_cmd`, and what follows it. -/
def execLoop (hal : HalTimer) (client : AtClient) (endTime : Nat) :
    (turns : Nat) → Command → Uart → Option Executed
  | 0, _, _ => none
  | turns + 1, command, uart => do
      let (command, uart) ← clientParser hal client command uart
      if command.respNotice then
        if command.respStatus ≠ .ok then some ⟨.failureRet, command, uart⟩
        else some (testTimeout hal endTime command uart)
      else
        let tested := uart.elapse 0
        if hal.expired endTime tested.now then
          some (testTimeout hal endTime command tested)
        else execLoop hal client endTime turns command tested

/-- `at_obj_exec_cmd`, once it has formatted the command; `resp_notice` is false
between two commands.  A pass of its loop takes a second, so that there are no
more passes than those. -/
def atObjExecCmd (hal : HalTimer) (client : AtClient) (resp : AtResponse)
    (uart : Uart) : Option Executed := do
  let written := uart.elapse 0
  let started := written.elapse 0
  let command : Command :=
    { resp := { resp with lineCounts := 0 }
      attached := true
      respStatus := .ok
      respNotice := false }
  let done ← execLoop hal client (started.now + resp.timeout)
    (resp.timeout / cmdResponseIntervalMs + 1) command started
  some
    { done with
      command :=
        { done.command with attached := false, respNotice := false } }

end At
end UIoT
