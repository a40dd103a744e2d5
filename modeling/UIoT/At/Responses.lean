import UIoT.At.Passes

/-!
# Collecting a response

The place in the array of a response and the number of its lines are variables
of one pass of `client_parser`.  So the lines of an answer are collected
together if and only if one pass hears all of them.
-/

namespace UIoT
namespace At

/-! ## Answers in one pass -/

/-- The lines of the answer were collected, and its last one decided. -/
def Executed.Collected (executed : Executed) (lines : List (List UInt8))
    (verdict : RespStatus) : Prop :=
  executed.command.resp.Holds lines ∧
    (executed.ret = .successRet ↔ verdict = .ok)

/-- A pass hears all these lines, and those in front of it hear nothing. -/
inductive HeardTogether (hal : HalTimer) (endTime : Nat) :
    Uart → List (List UInt8) → Uart → Prop
  | now {uart after : Uart} {lines : List (List UInt8)}
      (hears : HearsLines hal (passEnd uart) (uart.elapse 0) lines after) :
      HeardTogether hal endTime uart lines after
  | later {uart middle after : Uart} {lines : List (List UInt8)}
      (quiet : QuietPass hal (passEnd uart) (uart.elapse 0) middle)
      (running : hal.expired endTime (middle.elapse 0).now = false)
      (rest : HeardTogether hal endTime (middle.elapse 0) lines after) :
      HeardTogether hal endTime uart lines after

/-! ## Counting lines -/

/-- Every terminated line has a zero. -/
theorem le_count_terminated (lines : List (List UInt8)) :
    lines.length ≤ (lines.flatMap terminated).count 0 := by
  induction lines with
  | nil => exact Nat.zero_le _
  | cons line lines inductionHypothesis =>
      rw [List.flatMap_cons, List.count_append, terminated, List.count_append,
        List.count_singleton_self, List.length_cons]
      omega

/-- A terminated line of text has no other. -/
theorem count_terminated {lines : List (List UInt8)}
    (text : ∀ line ∈ lines, 0 ∉ line) :
    (lines.flatMap terminated).count 0 = lines.length := by
  induction lines with
  | nil => rfl
  | cons line lines inductionHypothesis =>
      obtain ⟨first, rest⟩ := List.forall_mem_cons.mp text
      have none : line.dropLast.count 0 = 0 :=
        List.count_eq_zero_of_not_mem fun mem =>
          first (List.dropLast_subset line mem)
      rw [List.flatMap_cons, List.count_append, terminated, List.count_append,
        List.count_singleton_self, List.length_cons, inductionHypothesis rest,
        none]
      omega

theorem flatMap_terminated_getLast {lines : List (List UInt8)}
    (nonempty : lines ≠ []) :
    ∃ front, lines.flatMap terminated = front ++ [0] := by
  obtain ⟨init, last, rfl⟩ :=
    List.eq_nil_or_concat lines |>.resolve_left nonempty
  refine ⟨init.flatMap terminated ++ last.dropLast, ?_⟩
  rw [List.concat_eq_append, List.flatMap_append, List.flatMap_singleton,
    terminated, List.append_assoc]

/-- A response that holds lines of text, and as many others that take no more
room, has no byte behind those. -/
theorem AtResponse.Holds.length_eq {resp : AtResponse}
    {lines others : List (List UInt8)} (holds : resp.Holds lines)
    (same : resp.Holds others) (text : ∀ line ∈ lines, 0 ∉ line)
    (le : others.flatten.length ≤ lines.flatten.length) :
    others.flatten.length = lines.flatten.length := by
  by_contra ne
  obtain ⟨behind, split⟩ := Nat.exists_eq_add_of_lt
    (Nat.lt_of_le_of_ne le ne)
  have nonempty : lines ≠ [] := by
    rintro rfl
    exact absurd split (Nat.succ_ne_zero _).symm
  obtain ⟨front, last⟩ := flatMap_terminated_getLast nonempty
  -- the last byte is a zero, and stands behind the zeros of the others
  have whole := holds.stored
  rw [split, Nat.add_assoc, Memory.slice_add, same.stored, last] at whole
  have zeros := congrArg (List.count 0) whole
  have counted := count_terminated text
  have others_count := le_count_terminated others
  have lengths : others.length = lines.length :=
    same.counts.symm.trans holds.counts
  rw [last] at counted
  rw [counted, List.count_append] at zeros
  have member : (0 : UInt8) ∈ resp.buf.slice (0 + others.flatten.length)
      (behind + 1) := by
    have final := congrArg List.getLast? whole
    rw [List.getLast?_append, List.getLast?_append] at final
    have some := List.getLast?_eq_some_getLast
      (List.ne_nil_of_length_pos (by simp) :
        resp.buf.slice (0 + others.flatten.length) (behind + 1) ≠ [])
    rw [some] at final
    simp only [Option.some_or, List.getLast?_singleton,
      Option.some.injEq] at final
    rw [← final]
    exact List.getLast_mem _
  have positive := List.count_pos_iff.mpr member
  omega

/-! ## What a command makes of its passes -/

section Commands

variable {hal : HalTimer} {client : AtClient} {endTime : Nat}
  {resp : AtResponse} {uart : Uart}

/-- What becomes of a command: it gets no answer, or an answer with the lines
one of its passes collected. -/
inductive Executes (hal : HalTimer) (client : AtClient) (endTime : Nat)
    (uart : Uart) : Executed → Prop
  | unanswered (executed : Executed)
      (uncounted : executed.command.resp.lineCounts = 0) :
      Executes hal client endTime uart executed
  | answered (executed : Executed) (popped : List UInt8)
      (lines : List (List UInt8)) (after : Uart)
      (holds : executed.command.resp.Holds lines)
      (flows : uart.Flows popped after) (sublist : lines.flatten.Sublist popped)
      (readable : ∀ line ∈ lines, Readable client line)
      (hears : popped.length = lines.flatten.length →
        HeardTogether hal endTime uart lines after)
      (inTime : executed.ret = .successRet →
        hal.expired endTime (after.elapse 0).now = false) :
      Executes hal client endTime uart executed

/-- The end of a command whose pass has noticed something. -/
def noticed (hal : HalTimer) (endTime : Nat) (command : Command)
    (uart : Uart) : Executed :=
  if command.respStatus ≠ .ok then ⟨.failureRet, command, uart⟩
  else testTimeout hal endTime command uart

theorem testTimeout_resp (command : Command) :
    (testTimeout hal endTime command uart).command.resp = command.resp := by
  unfold testTimeout
  dsimp only
  split <;> rfl

theorem testTimeout_ret (command : Command) :
    (testTimeout hal endTime command uart).ret = .successRet ↔
      hal.expired endTime (uart.elapse 0).now = false := by
  unfold testTimeout
  dsimp only
  cases hal.expired endTime (uart.elapse 0).now with
  | true => exact iff_of_false nofun nofun
  | false => exact iff_of_true rfl rfl

theorem noticed_resp (command : Command) :
    (noticed hal endTime command uart).command.resp = command.resp := by
  unfold noticed
  split
  · rfl
  · exact testTimeout_resp command

theorem noticed_ret (command : Command) :
    (noticed hal endTime command uart).ret = .successRet ↔
      command.respStatus = .ok ∧
        hal.expired endTime (uart.elapse 0).now = false := by
  unfold noticed
  by_cases ok : command.respStatus = .ok
  · rw [if_neg (not_not_intro ok), testTimeout_ret]
    exact (and_iff_right ok).symm
  · rw [if_pos ok]
    exact iff_of_false nofun fun both => ok both.1

theorem execLoop_notices {command answered : Command} {after : Uart}
    (returns : clientParser hal client command uart = some (answered, after))
    (notice : answered.respNotice = true) (turns : Nat) :
    execLoop hal client endTime (turns + 1) command uart =
      some (noticed hal endTime answered after) := by
  rw [execLoop]
  unfold noticed
  simp only [returns, notice, Option.bind_eq_bind, Option.bind_some, if_true]
  split <;> rfl

theorem execLoop_goes {command waiting : Command} {after : Uart}
    (returns : clientParser hal client command uart = some (waiting, after))
    (unnoticed : waiting.respNotice = false) (turns : Nat) :
    execLoop hal client endTime (turns + 1) command uart =
      if hal.expired endTime (after.elapse 0).now then
        some (testTimeout hal endTime waiting (after.elapse 0))
      else execLoop hal client endTime turns waiting (after.elapse 0) := by
  rw [execLoop]
  simp only [returns, unnoticed, Option.bind_eq_bind, Option.bind_some,
    Bool.false_eq_true, if_false]

/-- A pass in front of a command that hears nothing, if its bytes are those of
the lines behind it. -/
theorem Executes.later {middle : Uart} {popped : List UInt8}
    {executed : Executed} (flows : uart.Flows popped middle)
    (quiet : popped = [] → QuietPass hal (passEnd uart) (uart.elapse 0) middle)
    (running : hal.expired endTime (middle.elapse 0).now = false)
    (executes : Executes hal client endTime (middle.elapse 0) executed) :
    Executes hal client endTime uart executed := by
  have step := flows.trans (Uart.elapse_flows flows.formed 0)
  rw [List.append_nil] at step
  cases executes with
  | unanswered uncounted => exact .unanswered executed uncounted
  | answered behind lines after holds rest sublist readable hears inTime =>
      refine .answered executed _ lines after holds (step.trans rest)
        (sublist.trans (List.sublist_append_right _ _)) readable ?_ inTime
      intro lengths
      have short := sublist.length_le
      rw [List.length_append] at lengths
      have none : popped = [] := List.length_eq_zero_iff.mp (by omega)
      exact .later (quiet none) running (hears (by omega))

/-- Every command ends, in one of these ways. -/
theorem execLoop_executes (formed : uart.ring.WellFormed) {turns : Nat}
    (enough : endTime < uart.now + cmdResponseIntervalMs * turns)
    (running : uart.now ≤ endTime) {command : Command}
    (waiting : command.Waiting resp) :
    ∃ executed, execLoop hal client endTime turns command uart =
        some executed ∧
      Executes hal client endTime uart executed := by
  induction turns generalizing uart command with
  | zero => omega
  | succ turns inductionHypothesis =>
      obtain ⟨result, returns, parses⟩ :=
        clientParser_parses hal client formed waiting
      have started := Uart.elapse_flows formed 0
      have clock := Uart.elapse_now_le uart 0
      cases parses with
      | ended unanswered after popped still flows late quiet =>
          rw [execLoop_goes returns still.unnoticed]
          cases expired : hal.expired endTime (after.elapse 0).now with
          | true =>
              rw [if_pos rfl]
              refine ⟨_, rfl, .unanswered _ ?_⟩
              rw [testTimeout_resp, still.same]
          | false =>
              rw [if_neg Bool.false_ne_true]
              have tested := Uart.elapse_now_le after 0
              unfold passEnd at late
              have enough_rest : endTime <
                  (after.elapse 0).now + cmdResponseIntervalMs * turns := by
                rw [Nat.mul_succ] at enough
                omega
              obtain ⟨executed, later, executes⟩ := inductionHypothesis
                (Uart.elapse_formed flows.formed 0) enough_rest
                (hal.le_of_running expired) still
              have whole : uart.Flows popped after := started.trans flows
              exact ⟨executed, later, executes.later whole quiet expired⟩
      | noticed silenced after notice uncounted =>
          rw [execLoop_notices returns notice]
          refine ⟨_, rfl, .unanswered _ ?_⟩
          rw [noticed_resp, uncounted]
      | answered answered after popped more notice holds flows sublist readable
          hears =>
          rw [execLoop_notices returns notice]
          have whole : uart.Flows popped after := started.trans flows
          refine ⟨_, rfl, .answered _ popped more after ?_ whole sublist
            readable (fun lengths => .now (hears lengths)) ?_⟩
          · rw [noticed_resp]
            exact holds
          · exact fun succeeds => (noticed_ret answered).mp succeeds |>.2

/-- A command whose lines are heard together is answered with them. -/
theorem execLoop_together {lines : List (List UInt8)} {verdict : RespStatus}
    {after : Uart} (together : HeardTogether hal endTime uart lines after)
    (formed : uart.ring.WellFormed)
    (answers : IsResponse client resp lines verdict)
    (short : ∀ line ∈ lines, line.length ≤ client.recvBufsz)
    {command : Command} (waiting : command.Waiting resp) {turns : Nat}
    {executed : Executed}
    (returns : execLoop hal client endTime turns command uart =
      some executed) :
    executed.command.resp.Holds lines ∧
      (executed.ret = .successRet ↔
        verdict = .ok ∧ hal.expired endTime (after.elapse 0).now = false) := by
  induction together generalizing turns with
  | @now uart after lines hears =>
      cases turns with
      | zero => cases returns
      | succ turns =>
          obtain ⟨answered, parsed, notice, rfl, holds⟩ :=
            clientParser_hears formed waiting answers short hears
          rw [execLoop_notices parsed notice] at returns
          cases returns
          rw [noticed_resp]
          exact ⟨holds, noticed_ret answered⟩
  | @later uart middle after lines quiet running rest inductionHypothesis =>
      cases turns with
      | zero => cases returns
      | succ turns =>
          have parsed : clientParser hal client command uart =
              some (command, middle) :=
            clientParser_quiet formed waiting quiet
          rw [execLoop_goes parsed waiting.unnoticed,
            if_neg (ne_true_of_eq_false running)] at returns
          have middle_formed :=
            quiet.formed (Uart.elapse_formed formed 0)
          exact inductionHypothesis (Uart.elapse_formed middle_formed 0)
            answers short returns

/-- The state in which `at_obj_exec_cmd` calls the parser first, when it has
sent the command and started its timer. -/
def sent (uart : Uart) : Uart := (uart.elapse 0).elapse 0

/-- The end of the time a command has. -/
def commandEnd (resp : AtResponse) (uart : Uart) : Nat :=
  (sent uart).now + resp.timeout

/-- No line is longer than the client's array for one; one pass of the parser
hears all of them, and those in front of it hear nothing; and where they say
that the command succeeded, its time is not over then. -/
def CollectedTogether (hal : HalTimer) (client : AtClient) (resp : AtResponse)
    (uart : Uart) (lines : List (List UInt8)) (verdict : RespStatus) : Prop :=
  (∀ line ∈ lines, line.length ≤ client.recvBufsz) ∧
    ∃ after, HeardTogether hal (commandEnd resp uart) (sent uart) lines after ∧
      (verdict = .ok →
        hal.expired (commandEnd resp uart) (after.elapse 0).now = false)

/-- The command as `at_obj_exec_cmd` starts it. -/
def Command.start (resp : AtResponse) : Command where
  resp := { resp with lineCounts := 0 }
  attached := true
  respStatus := .ok
  respNotice := false

theorem Command.start_waiting (resp : AtResponse) :
    (Command.start resp).Waiting resp :=
  ⟨rfl, rfl, rfl⟩

/-- The loop of a command, and what is done behind it. -/
theorem atObjExecCmd_eq (hal : HalTimer) (client : AtClient)
    (resp : AtResponse) (uart : Uart) :
    atObjExecCmd hal client resp uart =
      (execLoop hal client (commandEnd resp uart)
        (resp.timeout / cmdResponseIntervalMs + 1) (.start resp)
        (sent uart)).map fun done =>
          { done with
            command :=
              { done.command with
                attached := false
                respNotice := false } } := by
  unfold atObjExecCmd
  simp only [Option.bind_eq_bind, Option.map_eq_bind]
  rfl

theorem sent_flows (formed : uart.ring.WellFormed) :
    uart.Flows [] (sent uart) :=
  (Uart.elapse_flows formed 0).trans
    (Uart.elapse_flows (Uart.elapse_formed formed 0) 0)

theorem execLoop_sent (hal : HalTimer) (client : AtClient) (resp : AtResponse)
    (formed : uart.ring.WellFormed) :
    ∃ executed, execLoop hal client (commandEnd resp uart)
        (resp.timeout / cmdResponseIntervalMs + 1) (.start resp)
        (sent uart) = some executed ∧
      Executes hal client (commandEnd resp uart) (sent uart) executed := by
  refine execLoop_executes (sent_flows formed).formed ?_ (Nat.le_add_right _ _)
    (Command.start_waiting resp)
  unfold cmdResponseIntervalMs
  omega

/-- What a command whose answer is collected has heard: every byte that came in
belongs to the lines of one pass. -/
theorem Executes.together {lines : List (List UInt8)} {verdict : RespStatus}
    {executed : Executed} {endTime : Nat}
    (executes : Executes hal client endTime uart executed)
    (answers : IsResponse client resp lines verdict)
    (stream : uart.stream.length ≤ lines.flatten.length)
    (holds : executed.command.resp.Holds lines) :
    ∃ others after, others.flatten.length = lines.flatten.length ∧
      others.flatten.Sublist uart.stream ∧
      (∀ line ∈ others, Readable client line) ∧
      HeardTogether hal endTime uart others after ∧
      (executed.ret = .successRet →
        hal.expired endTime (after.elapse 0).now = false) := by
  cases executes with
  | unanswered uncounted =>
      have none : lines.length = 0 := holds.counts.symm.trans uncounted
      have closes := answers.closes
      rw [List.length_eq_zero_iff.mp none] at closes
      cases closes
  | answered popped others after same flows sublist readable hears inTime =>
      have shorter := flows.length_le
      have short := sublist.length_le
      have equal : others.flatten.length = lines.flatten.length :=
        holds.length_eq same answers.text (by omega)
      have popped_stream : popped.Sublist uart.stream :=
        (List.sublist_append_left _ _).trans flows.sublist
      exact ⟨others, after, equal, sublist.trans popped_stream, readable,
        hears (by omega), inTime⟩

/-- The lines of an answer, and nothing else, come in: they are collected, and
the last one decides, if and only if one pass of the parser hears all of
them. -/
theorem responseCollected_iff {lines : List (List UInt8)}
    {verdict : RespStatus} (formed : uart.ring.WellFormed)
    (answers : IsResponse client resp lines verdict)
    (stream : uart.stream = lines.flatten) :
    (∃ executed, atObjExecCmd hal client resp uart = some executed ∧
      executed.Collected lines verdict) ↔
    CollectedTogether hal client resp uart lines verdict := by
  obtain ⟨done, returns, executes⟩ :=
    execLoop_sent hal client resp formed
  have started := sent_flows formed
  rw [atObjExecCmd_eq, returns]
  simp only [Option.map_some, Option.some.injEq, exists_eq_left']
  constructor
  · rintro ⟨holds, decides⟩
    have short := started.length_le
    rw [stream] at short
    obtain ⟨others, after, equal, sublist, readable, together, inTime⟩ :=
      executes.together answers (by omega) holds
    have all : others.flatten = lines.flatten := by
      refine List.Sublist.eq_of_length ?_ equal
      rw [← stream]
      exact sublist.trans started.sublist
    have same : others = lines := completeLines_unique
      (fun line mem => (readable line mem).1) answers.complete all
    subst same
    exact ⟨fun line mem => (readable line mem).2, after, together,
      fun ok => inTime (decides.mpr ok)⟩
  · rintro ⟨short, after, together, inTime⟩
    obtain ⟨holds, decides⟩ := execLoop_together together started.formed
      answers short (Command.start_waiting resp) returns
    exact ⟨holds, decides.trans ⟨fun both => both.1, fun ok => ⟨ok, inTime ok⟩⟩⟩

end Commands

/-! ## Two passes -/

/-- A client without an end sign or lines of its own. -/
def plainClient : AtClient := ⟨0, 128, .none, []⟩

/-- A response of 64 bytes that any final line ends. -/
def plainResponse : AtResponse := ⟨fun _ => 0, 64, 0, 0, false, 5000⟩

/-- A line of a response, and the one that ends it. -/
def valueLine : List UInt8 := ascii "A" ++ [13, 10]

/-- See `valueLine`. -/
def okLine : List UInt8 := ascii "OK" ++ [13, 10]

/-- The two lines come in with such times in front of each. -/
def twoLines (before between : Nat) : Uart where
  now := 0
  ahead := List.replicate before ⟨0, []⟩ ++ [⟨0, valueLine⟩] ++
    List.replicate between ⟨0, []⟩ ++ [⟨0, okLine⟩]
  ring := ringBuffInit (fun _ => 0) 64

theorem twoLines_wellFormed (before between : Nat) :
    (twoLines before between).ring.WellFormed := by
  have formed : (ringBuffInit (fun _ => 0) 64).WellFormed :=
    ⟨by decide, by decide⟩
  exact formed

theorem twoLines_stream (before between : Nat) :
    (twoLines before between).stream = [valueLine, okLine].flatten := by
  have silent : ∀ count, (List.replicate count (⟨0, []⟩ : Moment)).flatMap
      Moment.arrives = [] := by
    intro count
    rw [List.flatMap_replicate]
    simp
  have empty : (ringBuffInit (fun _ => 0) 64).stored = [] := by decide
  unfold Uart.stream Uart.toCome twoLines
  simp only [List.flatMap_append, silent, empty]
  rfl

theorem plainResponse_isResponse :
    IsResponse plainClient plainResponse [valueLine, okLine] .ok where
  complete := by
    intro line mem
    have bounded : line ≠ [] ∧
        lineEnds plainClient line (line.getLastD 0)
            (line.dropLast.getLastD 0) = true ∧
        ∀ count < line.length, 0 < count →
          ¬ lineEnds plainClient (line.take count)
            ((line.take count).getLastD 0)
            ((line.take count).dropLast.getLastD 0) = true := by
      revert line
      decide
    exact ⟨bounded.1, bounded.2.1, fun count positive small =>
      bounded.2.2 count small positive⟩
  text := by decide
  asked := fun _ _ => rfl
  room := by decide
  closes := .more (by decide) (.last (by decide))

theorem responseCollected_iff_onePass :
    (∃ executed, atObjExecCmd .linux plainClient plainResponse
        (twoLines 3 10) = some executed ∧
      executed.Collected [valueLine, okLine] .ok) ↔
    CollectedTogether .linux plainClient plainResponse (twoLines 3 10)
      [valueLine, okLine] .ok :=
  responseCollected_iff (twoLines_wellFormed 3 10) plainResponse_isResponse
    (twoLines_stream 3 10)

/-- The first line comes in near the end of a pass: the next one writes over it,
and counts the other line alone. -/
theorem laterPass_overwrites :
    ¬ ∀ (hal : HalTimer) (client : AtClient) (resp : AtResponse) (uart : Uart)
      (lines : List (List UInt8)) (verdict : RespStatus),
      uart.ring.WellFormed → IsResponse client resp lines verdict →
        uart.stream = lines.flatten → ∀ executed,
          atObjExecCmd hal client resp uart = some executed →
            executed.uart.toCome = [] →
              executed.uart.now < uart.now + resp.timeout →
                executed.Collected lines verdict := by
  intro collected
  have run : (atObjExecCmd .linux plainClient plainResponse
      (twoLines 210 30)).map (fun executed =>
        (executed.uart.toCome, executed.uart.now,
          executed.command.resp.lineCounts)) = some ([], 1000, 1) := by
    decide +kernel
  obtain ⟨executed, returns, outcome⟩ := Option.map_eq_some_iff.mp run
  obtain ⟨delivered, now, counted⟩ :
      executed.uart.toCome = [] ∧ executed.uart.now = 1000 ∧
        executed.command.resp.lineCounts = 1 := by
    simpa only [Prod.mk.injEq] using outcome
  have early : executed.uart.now < (twoLines 210 30).now +
      plainResponse.timeout := by
    rw [now]
    decide
  have both := collected .linux plainClient plainResponse (twoLines 210 30)
    [valueLine, okLine] .ok (twoLines_wellFormed 210 30)
    plainResponse_isResponse (twoLines_stream 210 30) executed returns
    delivered early
  have counts := both.1.counts
  rw [counted] at counts
  exact absurd counts (by decide)

end At
end UIoT
