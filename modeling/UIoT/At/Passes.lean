import UIoT.At.Lines

/-!
# The passes of the parser

What one pass of `client_parser` makes of the lines it hears.  It takes them
behind each other into the array of the response, until one ends the response or
its second is over.
-/

namespace UIoT
namespace At

/-! ## Answers -/

/-- Of these lines, which are read behind so many others, the last one, and only
it, ends the response. -/
inductive Closes (resp : AtResponse) :
    (count : Nat) → List (List UInt8) → RespStatus → Prop
  | last {count : Nat} {line : List UInt8} {verdict : RespStatus}
      (ends : endsResponse resp (count + 1) (terminated line) = some verdict) :
      Closes resp count [line] verdict
  | more {count : Nat} {line : List UInt8} {lines : List (List UInt8)}
      {verdict : RespStatus}
      (runs : endsResponse resp (count + 1) (terminated line) = none)
      (rest : Closes resp (count + 1) lines verdict) :
      Closes resp count (line :: lines) verdict

/-- The lines of an answer: they are complete, none is one the module sends of
itself, and the response has room for them. -/
structure IsResponse (client : AtClient) (resp : AtResponse)
    (lines : List (List UInt8)) (verdict : RespStatus) : Prop where
  complete : ∀ line ∈ lines, CompleteLine client line
  text : ∀ line ∈ lines, 0 ∉ line
  asked : ∀ line ∈ lines, getUrcObj client line = none
  room : lines.flatten.length < resp.bufSize
  closes : Closes resp 0 lines verdict

/-- The response holds these lines, and knows how many they are. -/
structure AtResponse.Holds (resp : AtResponse) (lines : List (List UInt8)) :
    Prop where
  stored : resp.buf.slice 0 lines.flatten.length = lines.flatMap terminated
  counts : resp.lineCounts = lines.length

/-! ## Passes -/

/-- A pass that ends then hears nothing. -/
inductive QuietPass (hal : HalTimer) (endTime : Nat) : Uart → Uart → Prop
  | last {uart middle : Uart} (silent : Silent hal uart middle)
      (expired : hal.expired endTime (middle.elapse 0).now = true) :
      QuietPass hal endTime uart (middle.elapse 0)
  | more {uart middle after : Uart} (silent : Silent hal uart middle)
      (running : hal.expired endTime (middle.elapse 0).now = false)
      (rest : QuietPass hal endTime (middle.elapse 0) after) :
      QuietPass hal endTime uart after

theorem QuietPass.formed {hal : HalTimer} {endTime : Nat} {uart after : Uart}
    (quiet : QuietPass hal endTime uart after)
    (formed : uart.ring.WellFormed) : after.ring.WellFormed := by
  induction quiet with
  | last silent expired =>
      exact Uart.elapse_formed (silent.flows formed).1.formed 0
  | more silent running rest inductionHypothesis =>
      exact inductionHypothesis
        (Uart.elapse_formed (silent.flows formed).1.formed 0)

/-- A pass that ends then hears these lines before. -/
inductive HearsLines (hal : HalTimer) (endTime : Nat) :
    Uart → List (List UInt8) → Uart → Prop
  | last {uart after : Uart} {line : List UInt8}
      (hears : HearsLine hal uart line after) :
      HearsLines hal endTime uart [line] after
  | line {uart middle after : Uart} {line : List UInt8}
      {lines : List (List UInt8)} (hears : HearsLine hal uart line middle)
      (running : hal.expired endTime (middle.elapse 0).now = false)
      (rest : HearsLines hal endTime (middle.elapse 0) lines after) :
      HearsLines hal endTime uart (line :: lines) after
  | silence {uart middle after : Uart} {lines : List (List UInt8)}
      (silent : Silent hal uart middle)
      (running : hal.expired endTime (middle.elapse 0).now = false)
      (rest : HearsLines hal endTime (middle.elapse 0) lines after) :
      HearsLines hal endTime uart lines after

theorem HearsLines.nonempty {hal : HalTimer} {endTime : Nat}
    {uart after : Uart} {lines : List (List UInt8)}
    (hears : HearsLines hal endTime uart lines after) : lines ≠ [] := by
  induction hears with
  | last hears => exact List.cons_ne_nil _ _
  | line hears running rest => exact List.cons_ne_nil _ _
  | silence silent running rest inductionHypothesis =>
      exact inductionHypothesis

/-- The end of a pass that starts in this state. -/
def passEnd (uart : Uart) : Nat := (uart.elapse 0).now + cmdResponseIntervalMs

/-! ## Terminated lines -/

theorem length_terminated {line : List UInt8} (nonempty : line ≠ []) :
    (terminated line).length = line.length := by
  have positive := List.length_pos_iff.mpr nonempty
  rw [terminated, List.length_append, List.length_dropLast,
    List.length_singleton]
  omega

/-! ## Complete lines -/

section Splitting

variable {client : AtClient}

/-- A complete line is no beginning of a longer one. -/
theorem CompleteLine.length_le {line other : List UInt8}
    (complete : CompleteLine client line) (longer : CompleteLine client other)
    (isPrefix : line <+: other) : other.length ≤ line.length := by
  by_contra shorter
  have positive := List.length_pos_iff.mpr complete.nonempty
  have running := longer.first line.length positive (Nat.lt_of_not_le shorter)
  rw [List.prefix_iff_eq_take.mp isPrefix |>.symm] at running
  exact running complete.ends

/-- Bytes are complete lines in one way only. -/
theorem completeLines_unique {lines others : List (List UInt8)}
    (complete : ∀ line ∈ lines, CompleteLine client line)
    (complete_others : ∀ line ∈ others, CompleteLine client line)
    (same : lines.flatten = others.flatten) : lines = others := by
  induction lines generalizing others with
  | nil =>
      cases others with
      | nil => rfl
      | cons other others =>
          have none := List.append_eq_nil_iff.mp same.symm
          exact absurd none.1
            (complete_others other List.mem_cons_self).nonempty
  | cons line lines inductionHypothesis =>
      obtain ⟨first, rest⟩ := List.forall_mem_cons.mp complete
      cases others with
      | nil => exact absurd (List.append_eq_nil_iff.mp same).1 first.nonempty
      | cons other others =>
          obtain ⟨first_other, rest_others⟩ :=
            List.forall_mem_cons.mp complete_others
          rw [List.flatten_cons, List.flatten_cons] at same
          have isPrefix : line <+: other ++ others.flatten :=
            ⟨lines.flatten, same⟩
          have equal : line = other := by
            rcases List.prefix_or_prefix_of_prefix isPrefix
              (List.prefix_append other others.flatten) with front | front
            · exact front.eq_of_length_le (first.length_le first_other front)
            · exact (front.eq_of_length_le
                (first_other.length_le first front)).symm
          subst equal
          rw [List.append_cancel_left_eq] at same
          rw [inductionHypothesis rest rest_others same]

end Splitting

/-! ## Turns of a pass -/

section Turns

variable {client : AtClient} {resp : AtResponse}
  {front : List (List UInt8)} {line : List UInt8} {parser : Parser}

/-- A command for this response that is not yet answered. -/
structure Command.Waiting (resp : AtResponse) (command : Command) : Prop where
  attached : command.attached = true
  unnoticed : command.respNotice = false
  same : command.resp =
    { resp with buf := command.resp.buf, lineCounts := 0 }

/-- The parser has collected these lines of a response. -/
structure Collecting (resp : AtResponse) (front : List (List UInt8))
    (parser : Parser) : Prop where
  offset : parser.respBufLen = front.flatten.length
  counts : parser.lineCounts = front.length
  stored : parser.command.resp.buf.slice 0 front.flatten.length =
    front.flatMap terminated
  waiting : parser.command.Waiting resp

/-- A pass begins with no lines. -/
theorem Command.Waiting.collecting {command : Command}
    (waiting : command.Waiting resp) :
    Collecting resp [] ⟨0, 0, command⟩ :=
  ⟨rfl, rfl, rfl, waiting⟩

/-- The command when a line has ended its response. -/
def answer (parser : Parser) (respStatus : RespStatus) : Command where
  resp := { parser.command.resp with lineCounts := parser.lineCounts }
  attached := false
  respStatus
  respNotice := true

theorem Collecting.answer_holds (collecting : Collecting resp front parser)
    (respStatus : RespStatus) :
    (answer parser respStatus).resp.Holds front :=
  ⟨collecting.stored, collecting.counts⟩

/-- A line is collected if there is room for it. -/
theorem Collecting.collect (collecting : Collecting resp front parser)
    (nonempty : line ≠ []) :
    (Collecting resp (front ++ [line]) (collect parser (terminated line)) ∧
      (front ++ [line]).flatten.length < resp.bufSize) ∨
    (Collecting resp front (At.collect parser (terminated line)) ∧
      ¬ (front ++ [line]).flatten.length < resp.bufSize) := by
  obtain ⟨offset, counts, stored, waiting⟩ := collecting
  have length := length_terminated nonempty
  have whole : (front ++ [line]).flatten.length =
      front.flatten.length + line.length := by
    rw [List.flatten_append, List.length_append, List.flatten_singleton]
  have bufSize : parser.command.resp.bufSize = resp.bufSize := by
    rw [waiting.same]
  unfold At.collect
  dsimp only
  rw [whole, offset, length, bufSize]
  by_cases room : front.flatten.length + line.length < resp.bufSize
  · rw [if_pos room]
    refine .inl ⟨⟨whole.symm, ?_, ?_, ?_⟩, room⟩
    · rw [List.length_append, List.length_singleton, counts]
    · dsimp only
      rw [whole, Memory.slice_add, List.flatMap_append,
        List.flatMap_singleton]
      rw [Memory.slice_write_before _ _ (by omega), stored, Nat.zero_add,
        ← length, Memory.slice_write_same]
    · refine ⟨waiting.attached, waiting.unnoticed, ?_⟩
      dsimp only
      rw [waiting.same]
  · rw [if_neg room]
    exact .inr ⟨⟨rfl, counts, stored, waiting.attached, waiting.unnoticed,
      waiting.same⟩, room⟩

/-- What a pass makes of a line the module was asked for. -/
theorem handleLine_asked (attached : parser.command.attached = true)
    (asked : getUrcObj client line = none) :
    handleLine client line parser =
      match endsResponse (collect parser (terminated line)).command.resp
          (collect parser (terminated line)).lineCounts (terminated line) with
      | none => .stay (collect parser (terminated line))
      | some respStatus =>
          .leave (answer (collect parser (terminated line)) respStatus) := by
  unfold handleLine
  rw [asked]
  dsimp only
  rw [if_pos attached]
  rfl

/-- The tests look at two fields of a response that do not change. -/
theorem Collecting.endsResponse (collecting : Collecting resp front parser)
    (line : List UInt8) :
    At.endsResponse parser.command.resp parser.lineCounts line =
      At.endsResponse resp front.length line := by
  rw [collecting.counts, collecting.waiting.same]
  rfl

end Turns

/-! ## What a pass makes of what it hears -/

section Passes

variable {hal : HalTimer} {client : AtClient} {endTime : Nat}
  {resp : AtResponse} {front : List (List UInt8)} {uart : Uart}

/-- A line that `at_recv_readline` can return. -/
def Readable (client : AtClient) (line : List UInt8) : Prop :=
  CompleteLine client line ∧ line.length ≤ client.recvBufsz

/-- What becomes of a pass that has collected some lines: its second ends, or
the module sends something of itself, or the response is answered with these
lines and those the pass still collects. -/
inductive Parses (hal : HalTimer) (client : AtClient) (endTime : Nat)
    (resp : AtResponse) (front : List (List UInt8)) (uart : Uart) :
    Command × Uart → Prop
  | ended (command : Command) (after : Uart) (popped : List UInt8)
      (waiting : command.Waiting resp) (flows : uart.Flows popped after)
      (late : endTime ≤ after.now)
      (quiet : popped = [] → QuietPass hal endTime uart after) :
      Parses hal client endTime resp front uart (command, after)
  | noticed (command : Command) (after : Uart)
      (notice : command.respNotice = true)
      (uncounted : command.resp.lineCounts = 0) :
      Parses hal client endTime resp front uart (command, after)
  | answered (command : Command) (after : Uart) (popped : List UInt8)
      (more : List (List UInt8)) (notice : command.respNotice = true)
      (holds : command.resp.Holds (front ++ more))
      (flows : uart.Flows popped after) (sublist : more.flatten.Sublist popped)
      (readable : ∀ line ∈ more, Readable client line)
      (hears : popped.length = more.flatten.length →
        HearsLines hal endTime uart more after) :
      Parses hal client endTime resp front uart (command, after)

/-- A turn of a pass takes some bytes and collects these lines: there are none
without bytes, and no bytes without a line only in a silent wait. -/
structure Turned (hal : HalTimer) (client : AtClient) (uart : Uart)
    (popped : List UInt8) (lines : List (List UInt8)) (after : Uart) :
    Prop where
  flows : uart.Flows popped after
  sublist : lines.flatten.Sublist popped
  readable : ∀ line ∈ lines, Readable client line
  quiet : popped = [] →
    Silent hal uart after ∧ uart.now + getCharTimeoutMs ≤ after.now
  hears : popped.length = lines.flatten.length →
    popped = [] ∧ lines = [] ∨
      ∃ line, lines = [line] ∧ HearsLine hal uart line after

theorem Dropped.turned {done : ReadLine} (dropped : Dropped hal uart done) :
    ∃ popped, Turned hal client uart popped [] done.uart := by
  obtain ⟨-, popped, flows, quiet⟩ := dropped
  exact ⟨popped, flows, List.nil_sublist _, nofun, quiet,
    fun empty => .inl ⟨List.length_eq_zero_iff.mp empty, rfl⟩⟩

/-- A line that is read and collected. -/
theorem turned_line {line : List UInt8} {after : Uart}
    (readable : Readable client line) (hears : HearsLine hal uart line after)
    (flows : uart.Flows line after) :
    Turned hal client uart line [line] after where
  flows := flows
  sublist := by rw [List.flatten_singleton]
  readable := fun other mem => by
    rw [List.mem_singleton.mp mem]
    exact readable
  quiet := fun none => absurd none readable.1.nonempty
  hears := fun _ => .inr ⟨line, rfl, hears⟩

/-- A line that is read, and for which there is no room. -/
theorem turned_overflow {line : List UInt8} {after : Uart}
    (readable : Readable client line) (flows : uart.Flows line after) :
    Turned hal client uart line [] after where
  flows := flows
  sublist := List.nil_sublist _
  readable := nofun
  quiet := fun none => absurd none readable.1.nonempty
  hears := fun empty =>
    absurd (List.length_eq_zero_iff.mp empty) readable.1.nonempty

/-- What becomes of the pass behind a turn becomes of it in front. -/
theorem Turned.parses {popped : List UInt8} {lines : List (List UInt8)}
    {middle : Uart} {result : Command × Uart}
    (turned : Turned hal client uart popped lines middle)
    (running : hal.expired endTime (middle.elapse 0).now = false)
    (parses : Parses hal client endTime resp (front ++ lines)
      (middle.elapse 0) result) :
    Parses hal client endTime resp front uart result := by
  have flows := turned.flows.trans
    (Uart.elapse_flows turned.flows.formed 0)
  rw [List.append_nil] at flows
  cases parses with
  | ended command after behind waiting rest late quiet =>
      refine .ended command after _ waiting (flows.trans rest) late ?_
      intro nothing
      obtain ⟨none, none_behind⟩ := List.append_eq_nil_iff.mp nothing
      exact .more (turned.quiet none).1 running (quiet none_behind)
  | noticed command after notice uncounted =>
      exact .noticed command after notice uncounted
  | answered command after behind more notice holds rest sublist readable
      hears =>
      rw [List.append_assoc] at holds
      refine .answered command after _ (lines ++ more) notice holds
        (flows.trans rest) ?_ ?_ ?_
      · rw [List.flatten_append]
        exact turned.sublist.append sublist
      · intro line mem
        rcases List.mem_append.mp mem with first | later
        · exact turned.readable line first
        · exact readable line later
      · intro lengths
        have short := turned.sublist.length_le
        have short_behind := sublist.length_le
        rw [List.flatten_append, List.length_append,
          List.length_append] at lengths
        have rest_hears := hears (by omega)
        rcases turned.hears (by omega) with ⟨none, rfl⟩ | ⟨line, rfl, heard⟩
        · exact .silence (turned.quiet none).1 running rest_hears
        · exact .line heard running rest_hears

/-- The last turn of a pass whose second is over. -/
theorem Turned.ended {popped : List UInt8} {lines : List (List UInt8)}
    {middle : Uart} {parser : Parser}
    (turned : Turned hal client uart popped lines middle)
    (expired : hal.expired endTime (middle.elapse 0).now = true)
    (collecting : Collecting resp (front ++ lines) parser) :
    Parses hal client endTime resp front uart
      (parser.command, middle.elapse 0) := by
  have flows := turned.flows.trans
    (Uart.elapse_flows turned.flows.formed 0)
  rw [List.append_nil] at flows
  refine .ended _ _ popped collecting.waiting flows ?_ fun none =>
    .last (turned.quiet none).1 expired
  by_contra early
  rw [hal.before (Nat.lt_of_not_le early)] at expired
  cases expired

/-- The last turn of a pass, with a line that ends its response. -/
theorem Turned.answered {popped : List UInt8} {lines : List (List UInt8)}
    {after : Uart} {parser : Parser} (respStatus : RespStatus)
    (turned : Turned hal client uart popped lines after)
    (nonempty : popped ≠ [])
    (collecting : Collecting resp (front ++ lines) parser) :
    Parses hal client endTime resp front uart
      (answer parser respStatus, after) := by
  refine .answered _ after popped lines rfl
    (collecting.answer_holds respStatus) turned.flows turned.sublist
    turned.readable fun lengths => ?_
  rcases turned.hears lengths with ⟨none, -⟩ | ⟨line, rfl, hears⟩
  · exact absurd none nonempty
  · exact .last hears

/-- The result of a turn does not depend on the clock. -/
def turn (client : AtClient) (done : ReadLine) (parser : Parser) : Turn :=
  if 0 < done.ret then handleLine client done.received parser else .stay parser

theorem parserLoop_leaves {done : ReadLine} {parser : Parser}
    {command : Command} (returns : atRecvReadline hal client uart = some done)
    (leaves : turn client done parser = .leave command) (turns : Nat) :
    parserLoop hal client endTime (turns + 1) parser uart =
      some (command, done.uart) := by
  rw [parserLoop]
  unfold turn at leaves
  simp only [returns, leaves, Option.bind_eq_bind, Option.bind_some]

theorem parserLoop_stays {done : ReadLine} {parser next : Parser}
    (returns : atRecvReadline hal client uart = some done)
    (stays : turn client done parser = .stay next) (turns : Nat) :
    parserLoop hal client endTime (turns + 1) parser uart =
      if hal.expired endTime (done.uart.elapse 0).now then
        some (next.command, done.uart.elapse 0)
      else
        parserLoop hal client endTime turns next (done.uart.elapse 0) := by
  rw [parserLoop]
  unfold turn at stays
  simp only [returns, stays, Option.bind_eq_bind, Option.bind_some]

/-- What a turn does: it leaves the pass with an answer, or because of
something the module sends of itself, or goes on. -/
theorem turn_cases {done : ReadLine} {parser : Parser}
    (reads : ReadsLine hal client uart done)
    (collecting : Collecting resp front parser) :
    (∃ command, turn client done parser = .leave command ∧
      command.respNotice = true ∧ command.resp.lineCounts = 0) ∨
    ∃ popped lines next, Turned hal client uart popped lines done.uart ∧
      Collecting resp (front ++ lines) next ∧
      ((∃ respStatus, popped ≠ [] ∧
          turn client done parser = .leave (answer next respStatus)) ∨
        turn client done parser = .stay next) := by
  cases reads with
  | dropped done dropped =>
      obtain ⟨popped, turned⟩ : ∃ popped,
          Turned hal client uart popped [] done.uart := dropped.turned
      refine .inr ⟨popped, [], parser, turned, ?_, .inr ?_⟩
      · rw [List.append_nil]
        exact collecting
      · exact if_neg (Int.not_lt.mpr dropped.1)
  | line line after complete fits hears flows =>
      have positive : (0 : Int) < (line.length : Int) :=
        Int.natCast_pos.mpr (List.length_pos_iff.mpr complete.nonempty)
      have handled : turn client ⟨line.length, line, after⟩ parser =
          handleLine client line parser := if_pos positive
      rw [handled]
      cases found : getUrcObj client line with
      | some urc =>
          left
          unfold handleLine
          rw [found]
          refine ⟨_, rfl, rfl, ?_⟩
          dsimp only
          rw [collecting.waiting.same]
      | none =>
          right
          rw [handleLine_asked collecting.waiting.attached found]
          have readable : Readable client line := ⟨complete, fits⟩
          obtain ⟨lines, turned, collected⟩ : ∃ lines,
              Turned hal client uart line lines after ∧
                Collecting resp (front ++ lines)
                  (collect parser (terminated line)) := by
            rcases collecting.collect complete.nonempty with
              ⟨collected, -⟩ | ⟨collected, -⟩
            · exact ⟨[line], turned_line readable hears flows, collected⟩
            · refine ⟨[], turned_overflow readable flows, ?_⟩
              rw [List.append_nil]
              exact collected
          refine ⟨line, lines, _, turned, collected, ?_⟩
          cases endsResponse (collect parser (terminated line)).command.resp
              (collect parser (terminated line)).lineCounts
              (terminated line) with
          | none => exact .inr rfl
          | some respStatus =>
              exact .inl ⟨respStatus, complete.nonempty, rfl⟩

/-- Every pass ends, in one of these ways. -/
theorem parserLoop_parses (formed : uart.ring.WellFormed) {turns : Nat}
    (enough : uart.stream.length + (endTime - uart.now) < turns)
    (running : uart.now ≤ endTime) {parser : Parser}
    (collecting : Collecting resp front parser) :
    ∃ result, parserLoop hal client endTime turns parser uart = some result ∧
      Parses hal client endTime resp front uart result := by
  induction turns generalizing uart front parser with
  | zero => omega
  | succ turns inductionHypothesis =>
      obtain ⟨done, returns, reads⟩ := atRecvReadline_reads hal client formed
      obtain ⟨command, leaves, notice, uncounted⟩ |
        ⟨popped, lines, next, turned, collected, outcome⟩ :=
        turn_cases reads collecting
      · rw [parserLoop_leaves returns leaves]
        exact ⟨_, rfl, .noticed command done.uart notice uncounted⟩
      rcases outcome with ⟨respStatus, nonempty, leaves⟩ | stays
      · rw [parserLoop_leaves returns leaves]
        exact ⟨_, rfl, turned.answered respStatus nonempty collected⟩
      rw [parserLoop_stays returns stays]
      cases expired : hal.expired endTime (done.uart.elapse 0).now with
      | true =>
          rw [if_pos rfl]
          exact ⟨_, rfl, turned.ended expired collected⟩
      | false =>
          rw [if_neg Bool.false_ne_true]
          have flows := turned.flows.trans
            (Uart.elapse_flows turned.flows.formed 0)
          rw [List.append_nil] at flows
          have early := hal.le_of_running expired
          have shorter := flows.length_le
          have clock := flows.clock
          have tested := Uart.elapse_now_le done.uart 0
          have less : (done.uart.elapse 0).stream.length +
              (endTime - (done.uart.elapse 0).now) < turns := by
            cases popped with
            | nil =>
                obtain ⟨-, waited⟩ := turned.quiet rfl
                unfold getCharTimeoutMs at waited
                omega
            | cons byte popped =>
                rw [List.length_cons] at shorter
                omega
          obtain ⟨result, later, parses⟩ :=
            inductionHypothesis flows.formed less early collected
          exact ⟨result, later, turned.parses expired parses⟩

/-- A pass that hears nothing leaves the command alone. -/
theorem parserLoop_quiet {after : Uart}
    (quiet : QuietPass hal endTime uart after) {turns : Nat} {parser : Parser}
    {result : Command × Uart}
    (returns : parserLoop hal client endTime turns parser uart = some result) :
    result = (parser.command, after) := by
  induction quiet generalizing turns with
  | @last uart middle silent expired =>
      cases turns with
      | zero => cases returns
      | succ turns =>
          rw [parserLoop_stays (atRecvReadline_silent silent) rfl,
            if_pos expired] at returns
          exact (Option.some.inj returns).symm
  | @more uart middle after silent running rest inductionHypothesis =>
      cases turns with
      | zero => cases returns
      | succ turns =>
          rw [parserLoop_stays (atRecvReadline_silent silent) rfl, if_neg
            (ne_true_of_eq_false running)] at returns
          exact inductionHypothesis returns

/-- What a turn does with a line of an answer for which there is room. -/
theorem turn_line {line : List UInt8} {after : Uart} {parser : Parser}
    (complete : CompleteLine client line)
    (asked : getUrcObj client line = none)
    (room : (front ++ [line]).flatten.length < resp.bufSize)
    (collecting : Collecting resp front parser) :
    ∃ next, Collecting resp (front ++ [line]) next ∧
      turn client ⟨line.length, line, after⟩ parser =
        match endsResponse resp (front.length + 1) (terminated line) with
        | none => .stay next
        | some respStatus => .leave (answer next respStatus) := by
  obtain ⟨collected, -⟩ | ⟨-, full⟩ := collecting.collect complete.nonempty
  · refine ⟨_, collected, ?_⟩
    have positive : (0 : Int) < (line.length : Int) :=
      Int.natCast_pos.mpr (List.length_pos_iff.mpr complete.nonempty)
    have handled : turn client ⟨line.length, line, after⟩ parser =
        handleLine client line parser := if_pos positive
    rw [handled, handleLine_asked collecting.waiting.attached asked,
      collected.endsResponse, List.length_append, List.length_singleton]
  · exact absurd room full

/-- A pass that hears the lines of an answer is answered with them. -/
theorem parserLoop_hears {lines : List (List UInt8)} {after : Uart}
    (hears : HearsLines hal endTime uart lines after)
    (formed : uart.ring.WellFormed)
    (readable : ∀ line ∈ lines, Readable client line)
    (asked : ∀ line ∈ lines, getUrcObj client line = none)
    (room : (front ++ lines).flatten.length < resp.bufSize)
    {verdict : RespStatus} (closes : Closes resp front.length lines verdict)
    {turns : Nat} {parser : Parser} (collecting : Collecting resp front parser)
    {result : Command × Uart}
    (returns : parserLoop hal client endTime turns parser uart = some result) :
    ∃ command, result = (command, after) ∧ command.respNotice = true ∧
      command.respStatus = verdict ∧ command.resp.Holds (front ++ lines) := by
  induction hears generalizing front turns parser with
  | @last uart after line hears =>
      cases turns with
      | zero => cases returns
      | succ turns =>
          obtain ⟨complete, fits⟩ := readable line List.mem_cons_self
          have reads := atRecvReadline_hears formed hears complete fits
          obtain ⟨next, collected, turned⟩ := turn_line complete
            (asked line List.mem_cons_self) room collecting
          cases closes with
          | last ends =>
              rw [ends] at turned
              rw [parserLoop_leaves reads turned] at returns
              exact ⟨_, (Option.some.inj returns).symm, rfl, rfl,
                collected.answer_holds verdict⟩
          | more runs rest => cases rest
  | @line uart middle after line lines hears running rest inductionHypothesis =>
      cases turns with
      | zero => cases returns
      | succ turns =>
          obtain ⟨⟨complete, fits⟩, readable_rest⟩ :=
            List.forall_mem_cons.mp readable
          obtain ⟨asked_line, asked_rest⟩ := List.forall_mem_cons.mp asked
          have reads := atRecvReadline_hears formed hears complete fits
          have whole : front ++ line :: lines = front ++ [line] ++ lines := by
            simp
          have room_line : (front ++ [line]).flatten.length < resp.bufSize := by
            rw [whole, List.flatten_append, List.length_append] at room
            omega
          obtain ⟨next, collected, turned⟩ :=
            turn_line complete asked_line room_line collecting
          cases closes with
          | last ends => exact absurd rfl rest.nonempty
          | more runs closes =>
              rw [runs] at turned
              rw [parserLoop_stays reads turned, if_neg
                (ne_true_of_eq_false running)] at returns
              rw [whole] at room ⊢
              have count : (front ++ [line]).length = front.length + 1 :=
                List.length_append
              rw [← count] at closes
              exact inductionHypothesis
                (Uart.elapse_formed (hears.flows formed).formed 0)
                readable_rest asked_rest room closes collected returns
  | @silence uart middle after lines silent running rest inductionHypothesis =>
      cases turns with
      | zero => cases returns
      | succ turns =>
          rw [parserLoop_stays (atRecvReadline_silent silent) rfl, if_neg
            (ne_true_of_eq_false running)] at returns
          exact inductionHypothesis
            (Uart.elapse_formed (silent.flows formed).1.formed 0)
            readable asked room closes collecting returns

theorem clientParser_parses (hal : HalTimer) (client : AtClient)
    (formed : uart.ring.WellFormed) {command : Command}
    (waiting : command.Waiting resp) :
    ∃ result, clientParser hal client command uart = some result ∧
      Parses hal client (passEnd uart) resp [] (uart.elapse 0) result := by
  unfold clientParser
  refine parserLoop_parses (Uart.elapse_formed formed 0) ?_
    (Nat.le_add_right _ _) waiting.collecting
  omega

theorem clientParser_quiet {command : Command} {after : Uart}
    (formed : uart.ring.WellFormed) (waiting : command.Waiting resp)
    (quiet : QuietPass hal (passEnd uart) (uart.elapse 0) after) :
    clientParser hal client command uart = some (command, after) := by
  obtain ⟨result, returns, -⟩ := clientParser_parses hal client formed waiting
  rw [returns]
  exact congrArg some (parserLoop_quiet quiet returns)

theorem clientParser_hears {lines : List (List UInt8)} {verdict : RespStatus}
    {command : Command} {after : Uart} (formed : uart.ring.WellFormed)
    (waiting : command.Waiting resp)
    (answers : IsResponse client resp lines verdict)
    (short : ∀ line ∈ lines, line.length ≤ client.recvBufsz)
    (hears : HearsLines hal (passEnd uart) (uart.elapse 0) lines after) :
    ∃ answered, clientParser hal client command uart = some (answered, after) ∧
      answered.respNotice = true ∧ answered.respStatus = verdict ∧
      answered.resp.Holds lines := by
  obtain ⟨result, returns, -⟩ := clientParser_parses hal client formed waiting
  have room : ([] ++ lines).flatten.length < resp.bufSize := answers.room
  have collecting : Collecting resp [] ⟨0, 0, command⟩ := waiting.collecting
  obtain ⟨answered, rfl, rest⟩ := parserLoop_hears hears
    (Uart.elapse_formed formed 0)
    (fun line mem => ⟨answers.complete line mem, short line mem⟩)
    answers.asked room answers.closes collecting returns
  exact ⟨answered, returns, rest⟩

end Passes

end At
end UIoT
