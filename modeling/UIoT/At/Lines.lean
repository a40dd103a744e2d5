import UIoT.At.Client

/-!
# Hearing lines

What `at_recv_readline` makes of the bytes its waits hear: a whole line, or
nothing, or an unfinished line that it drops.
-/

namespace UIoT
namespace At

/-! ## The stream -/

namespace Uart

variable {uart : Uart}

/-- Between two states so many bytes were taken out of the ring buffer; nothing
was added to the stream, and the clock went on. -/
structure Flows (uart : Uart) (popped : List UInt8) (after : Uart) : Prop where
  formed : after.ring.WellFormed
  sublist : (popped ++ after.stream).Sublist uart.stream
  clock : uart.now ≤ after.now

theorem Flows.refl (formed : uart.ring.WellFormed) : uart.Flows [] uart :=
  ⟨formed, .refl _, Nat.le_refl _⟩

theorem Flows.trans {middle after : Uart} {first second : List UInt8}
    (before : uart.Flows first middle) (behind : middle.Flows second after) :
    uart.Flows (first ++ second) after := by
  refine ⟨behind.formed, ?_, before.clock.trans behind.clock⟩
  rw [List.append_assoc]
  exact (behind.sublist.append_left first).trans before.sublist

theorem Conserves.flows {popped : List UInt8} {after : Uart}
    (conserves : uart.Conserves popped after) (formed : after.ring.WellFormed)
    (clock : uart.now ≤ after.now) : uart.Flows popped after := by
  obtain ⟨arrived, stored, sublist⟩ := conserves
  refine ⟨formed, ?_, clock⟩
  unfold stream
  rw [← List.append_assoc, stored, List.append_assoc]
  exact sublist.append_left _

theorem elapse_flows (formed : uart.ring.WellFormed) (ms : Nat) :
    uart.Flows [] (uart.elapse ms) := by
  have clock := elapse_now_le uart ms
  exact (elapse_conserves formed ms).flows (elapse_formed formed ms) (by omega)

/-- A flush takes everything out of the ring buffer. -/
theorem flush_flows (formed : uart.ring.WellFormed) :
    uart.Flows [] { uart with ring := ringBuffFlush uart.ring } := by
  obtain ⟨flushed, empty⟩ := flush_stored (Nat.zero_lt_of_lt formed.read_lt)
  refine ⟨flushed, ?_, Nat.le_refl _⟩
  unfold stream
  dsimp only
  rw [empty]
  exact List.sublist_append_right ..

theorem Flows.length_le {popped : List UInt8} {after : Uart}
    (flows : uart.Flows popped after) :
    popped.length + after.stream.length ≤ uart.stream.length := by
  have le := flows.sublist.length_le
  rw [List.length_append] at le
  exact le

end Uart

/-! ## Waits for a byte of a line -/

/-- A wait hears a byte, in time. -/
def Takes (hal : HalTimer) (uart : Uart) (byte : UInt8) (after : Uart) : Prop :=
  atClientGetchar hal uart 0 getCharTimeoutMs =
    some ⟨.successRet, byte, [byte], after⟩

/-- A wait hears nothing. -/
def Silent (hal : HalTimer) (uart after : Uart) : Prop :=
  atClientGetchar hal uart 0 getCharTimeoutMs =
    some ⟨.errTcpNothingToRead, 0, [], after⟩

/-- Waits one behind the other hear these bytes, in time. -/
inductive HearsLine (hal : HalTimer) : Uart → List UInt8 → Uart → Prop
  | nil (uart : Uart) : HearsLine hal uart [] uart
  | cons {uart middle after : Uart} {byte : UInt8} {line : List UInt8}
      (takes : Takes hal uart byte middle)
      (rest : HearsLine hal middle line after) :
      HearsLine hal uart (byte :: line) after

section Waits

variable {hal : HalTimer} {uart after : Uart}

/-- A wait is of one of three kinds: it hears a byte in time, or too late, or
nothing. -/
theorem wait_cases (hal : HalTimer) (formed : uart.ring.WellFormed)
    (ch : UInt8) :
    ∃ done, atClientGetchar hal uart ch getCharTimeoutMs = some done ∧
      ((∃ byte, done.ret = .successRet ∧ done.pch = byte ∧
          Takes hal uart byte done.uart ∧ uart.Flows [byte] done.uart) ∨
        (∃ byte, done.ret ≠ .successRet ∧ uart.Flows [byte] done.uart) ∨
        (done.ret ≠ .successRet ∧ Silent hal uart done.uart ∧
          uart.Flows [] done.uart ∧
          uart.now + getCharTimeoutMs ≤ done.uart.now)) := by
  obtain ⟨done, returns, reads⟩ :=
    atClientGetchar_reads hal formed 0 getCharTimeoutMs
  obtain ⟨clock, waited⟩ := atClientGetchar_clock hal formed returns
  have flows := reads.conserves.flows reads.formed clock
  rw [atClientGetchar_pch, returns]
  refine ⟨_, rfl, ?_⟩
  cases reads with
  | took byte after => exact .inl ⟨byte, rfl, rfl, returns, flows⟩
  | late byte after => exact .inr (.inl ⟨byte, nofun, flows⟩)
  | silent after => exact .inr (.inr ⟨nofun, returns, flows, waited rfl⟩)

theorem Takes.getchar {byte : UInt8} (takes : Takes hal uart byte after)
    (ch : UInt8) :
    atClientGetchar hal uart ch getCharTimeoutMs =
      some ⟨.successRet, byte, [byte], after⟩ := by
  rw [atClientGetchar_pch, takes]
  rfl

theorem Takes.flows {byte : UInt8} (takes : Takes hal uart byte after)
    (formed : uart.ring.WellFormed) : uart.Flows [byte] after := by
  obtain ⟨done, returns, reads⟩ :=
    atClientGetchar_reads hal formed 0 getCharTimeoutMs
  obtain ⟨clock, -⟩ := atClientGetchar_clock hal formed returns
  have flows := reads.conserves.flows reads.formed clock
  rw [takes] at returns
  cases returns
  exact flows

theorem Silent.flows (silent : Silent hal uart after)
    (formed : uart.ring.WellFormed) :
    uart.Flows [] after ∧ uart.now + getCharTimeoutMs ≤ after.now := by
  obtain ⟨done, returns, reads⟩ :=
    atClientGetchar_reads hal formed 0 getCharTimeoutMs
  obtain ⟨clock, waited⟩ := atClientGetchar_clock hal formed returns
  have flows := reads.conserves.flows reads.formed clock
  rw [silent] at returns
  cases returns
  exact ⟨flows, waited rfl⟩

theorem HearsLine.flows {line : List UInt8}
    (hears : HearsLine hal uart line after)
    (formed : uart.ring.WellFormed) : uart.Flows line after := by
  induction hears with
  | nil uart => exact .refl formed
  | cons takes rest inductionHypothesis =>
      have first := takes.flows formed
      exact first.trans (inductionHypothesis first.formed)

end Waits

/-! ## Reading a line -/

section Lines

variable {hal : HalTimer} {client : AtClient} {uart after : Uart}

/-- The test for the end of a line, on what has been received of it. -/
def Ends (client : AtClient) (received : List UInt8) : Prop :=
  lineEnds client received (received.getLastD 0)
    (received.dropLast.getLastD 0) = true

/-- A line ends at its end, and not before. -/
structure CompleteLine (client : AtClient) (line : List UInt8) : Prop where
  nonempty : line ≠ []
  ends : Ends client line
  first : ∀ count, 0 < count → count < line.length →
    ¬ Ends client (line.take count)

theorem ends_concat (received : List UInt8) (byte : UInt8) :
    Ends client (received ++ [byte]) ↔
      lineEnds client (received ++ [byte]) byte (received.getLastD 0) =
        true := by
  unfold Ends
  rw [List.getLastD_concat, List.dropLast_concat]

/-- What was read of a line is dropped, if there was anything. -/
def Dropped (hal : HalTimer) (uart : Uart) (done : ReadLine) : Prop :=
  done.ret ≤ 0 ∧ ∃ popped, uart.Flows popped done.uart ∧
    (popped = [] → Silent hal uart done.uart ∧
      uart.now + getCharTimeoutMs ≤ done.uart.now)

/-- What a line that is read further turns out to be: its end is heard, or it is
dropped. -/
inductive Reading (hal : HalTimer) (client : AtClient) (uart : Uart)
    (received : List UInt8) : ReadLine → Prop
  | line (more : List UInt8) (after : Uart) (nonempty : more ≠ [])
      (hears : HearsLine hal uart more after) (flows : uart.Flows more after)
      (fits : (received ++ more).length ≤ client.recvBufsz)
      (ends : Ends client (received ++ more))
      (first : ∀ count, 0 < count → count < more.length →
        ¬ Ends client (received ++ more.take count)) :
      Reading hal client uart received
        ⟨(received ++ more).length, received ++ more, after⟩
  | dropped (done : ReadLine) (dropped : Dropped hal uart done) :
      Reading hal client uart received done

theorem Dropped.later {done : ReadLine} {byte : UInt8}
    (flows : uart.Flows [byte] after) (dropped : Dropped hal after done) :
    Dropped hal uart done := by
  obtain ⟨failed, popped, rest, -⟩ := dropped
  exact ⟨failed, byte :: popped, flows.trans rest,
    fun none => absurd none (List.cons_ne_nil _ _)⟩

/-- A turn in which a byte is heard in time. -/
theorem readlineLoop_takes {byte : UInt8} (takes : Takes hal uart byte after)
    (turns : Nat) (received : List UInt8) (isFull : Bool) (lastCh ch : UInt8) :
    readlineLoop hal client (turns + 1) received isFull lastCh ch uart =
      let room := received.length < client.recvBufsz
      let received := if room then received ++ [byte] else received
      let isFull := if room then isFull else true
      if lineEnds client received byte lastCh then
        if isFull then
          some ⟨failureRet, [],
            { after with ring := ringBuffFlush after.ring }⟩
        else some ⟨received.length, received, after⟩
      else readlineLoop hal client turns received isFull byte byte after := by
  rw [readlineLoop]
  simp only [takes.getchar, Option.bind_eq_bind, Option.bind_some]
  rw [if_neg (not_not_intro rfl)]

/-- A turn in which no byte is heard in time. -/
theorem readlineLoop_fails {done : Getchar} {ch : UInt8}
    (returns : atClientGetchar hal uart ch getCharTimeoutMs = some done)
    (failed : done.ret ≠ .successRet) (turns : Nat) (received : List UInt8)
    (isFull : Bool) (lastCh : UInt8) :
    readlineLoop hal client (turns + 1) received isFull lastCh ch uart =
      some ⟨errTcpNothingToRead, received, done.uart⟩ := by
  rw [readlineLoop]
  simp only [returns, Option.bind_eq_bind, Option.bind_some]
  rw [if_pos failed]

/-- A wait without a byte in time drops the line. -/
theorem dropped_of_wait {done : Getchar} (received : List UInt8)
    (failed : (∃ byte, done.ret ≠ .successRet ∧ uart.Flows [byte] done.uart) ∨
      (done.ret ≠ .successRet ∧ Silent hal uart done.uart ∧
        uart.Flows [] done.uart ∧
        uart.now + getCharTimeoutMs ≤ done.uart.now)) :
    Dropped hal uart ⟨errTcpNothingToRead, received, done.uart⟩ := by
  have negative : errTcpNothingToRead ≤ 0 := by decide
  rcases failed with ⟨byte, -, flows⟩ | ⟨-, silent, flows, waited⟩
  · exact ⟨negative, [byte], flows,
      fun none => absurd none (List.cons_ne_nil _ _)⟩
  · exact ⟨negative, [], flows, fun _ => ⟨silent, waited⟩⟩

/-- A line for which the array is too short is dropped at its end. -/
theorem dropped_flush {byte : UInt8} (flows : uart.Flows [byte] after) :
    Dropped hal uart
      ⟨failureRet, [], { after with ring := ringBuffFlush after.ring }⟩ := by
  have negative : failureRet ≤ 0 := by decide
  exact ⟨negative, [byte], flows.trans (Uart.flush_flows flows.formed),
    fun none => absurd none (List.cons_ne_nil _ _)⟩

theorem readlineLoop_full (formed : uart.ring.WellFormed) {turns : Nat}
    (enough : uart.stream.length < turns) (received : List UInt8)
    (lastCh ch : UInt8) :
    ∃ done, readlineLoop hal client turns received true lastCh ch uart =
        some done ∧ Dropped hal uart done := by
  induction turns generalizing uart received lastCh ch with
  | zero => omega
  | succ turns inductionHypothesis =>
      obtain ⟨done, returns, ⟨byte, -, -, takes, flows⟩ | failed⟩ :=
        wait_cases hal formed ch
      · have shorter := flows.length_le
        rw [List.length_singleton] at shorter
        rw [readlineLoop_takes takes]
        dsimp only
        rw [ite_self, if_pos rfl]
        generalize (if received.length < client.recvBufsz then
          received ++ [byte] else received) = next
        by_cases ends : lineEnds client next byte lastCh = true
        · rw [if_pos ends]
          exact ⟨_, rfl, dropped_flush flows⟩
        · rw [if_neg ends]
          obtain ⟨last, later, dropped⟩ := inductionHypothesis flows.formed
            (by omega) next byte byte
          exact ⟨last, later, dropped.later flows⟩
      · have ret : done.ret ≠ .successRet := by
          rcases failed with ⟨-, ret, -⟩ | ⟨ret, -⟩ <;> exact ret
        rw [readlineLoop_fails returns ret]
        exact ⟨_, rfl, dropped_of_wait received failed⟩

/-- A line that is read further is read to its end or dropped. -/
theorem readlineLoop_reading (formed : uart.ring.WellFormed) {turns : Nat}
    (enough : uart.stream.length < turns) (received : List UInt8)
    (ch : UInt8) :
    ∃ done,
      readlineLoop hal client turns received false (received.getLastD 0) ch
          uart = some done ∧
        Reading hal client uart received done := by
  induction turns generalizing uart received ch with
  | zero => omega
  | succ turns inductionHypothesis =>
      obtain ⟨done, returns, ⟨byte, -, -, takes, flows⟩ | failed⟩ :=
        wait_cases hal formed ch
      · have shorter := flows.length_le
        rw [List.length_singleton] at shorter
        have hears : HearsLine hal uart [byte] done.uart :=
          .cons takes (.nil _)
        rw [readlineLoop_takes takes]
        dsimp only
        by_cases room : received.length < client.recvBufsz
        · rw [if_pos room, if_pos room, if_neg Bool.false_ne_true]
          have length : (received ++ [byte]).length = received.length + 1 :=
            List.length_append
          by_cases ends : Ends client (received ++ [byte])
          · rw [if_pos ((ends_concat received byte).mp ends)]
            refine ⟨_, rfl, .line [byte] _ (List.cons_ne_nil _ _) hears flows
              (by omega) ends fun count positive small => ?_⟩
            rw [List.length_singleton] at small
            omega
          · rw [if_neg (mt (ends_concat received byte).mpr ends)]
            obtain ⟨last, later, reading⟩ := inductionHypothesis flows.formed
              (by omega) (received ++ [byte]) byte
            rw [List.getLastD_concat] at later
            refine ⟨last, later, ?_⟩
            cases reading with
            | line more after nonempty rest behind fits whole first =>
                have cons : received ++ [byte] ++ more =
                    received ++ byte :: more := by simp
                rw [cons] at fits whole ⊢
                refine .line (byte :: more) after (List.cons_ne_nil _ _)
                  (.cons takes rest) (flows.trans behind) fits whole ?_
                intro count positive small
                cases count with
                | zero => omega
                | succ count =>
                    rw [List.take_succ_cons]
                    cases count with
                    | zero => exact ends
                    | succ count =>
                        have earlier := first (count + 1) (Nat.succ_pos _)
                          (Nat.lt_of_succ_lt_succ small)
                        rw [List.append_assoc] at earlier
                        exact earlier
            | dropped done dropped => exact .dropped _ (dropped.later flows)
        · rw [if_neg room, if_neg room, if_pos rfl]
          split
          · exact ⟨_, rfl, .dropped _ (dropped_flush flows)⟩
          · obtain ⟨last, later, dropped⟩ :
                ∃ last, readlineLoop hal client turns received true byte byte
                    done.uart = some last ∧ Dropped hal done.uart last :=
              readlineLoop_full flows.formed (by omega) received byte byte
            exact ⟨last, later, .dropped _ (dropped.later flows)⟩
      · have ret : done.ret ≠ .successRet := by
          rcases failed with ⟨-, ret, -⟩ | ⟨ret, -⟩ <;> exact ret
        rw [readlineLoop_fails returns ret]
        exact ⟨_, rfl, .dropped _ (dropped_of_wait received failed)⟩

/-- What `at_recv_readline` makes of what its waits hear. -/
inductive ReadsLine (hal : HalTimer) (client : AtClient) (uart : Uart) :
    ReadLine → Prop
  | line (line : List UInt8) (after : Uart)
      (complete : CompleteLine client line)
      (fits : line.length ≤ client.recvBufsz)
      (hears : HearsLine hal uart line after) (flows : uart.Flows line after) :
      ReadsLine hal client uart ⟨line.length, line, after⟩
  | dropped (done : ReadLine) (dropped : Dropped hal uart done) :
      ReadsLine hal client uart done

theorem atRecvReadline_reads (hal : HalTimer) (client : AtClient)
    (formed : uart.ring.WellFormed) :
    ∃ done, atRecvReadline hal client uart = some done ∧
      ReadsLine hal client uart done := by
  obtain ⟨done, returns, reading⟩ :=
    readlineLoop_reading formed (Nat.lt_succ_self uart.stream.length) [] 0
  refine ⟨done, returns, ?_⟩
  cases reading with
  | line more after nonempty hears flows fits ends first =>
      exact .line more after ⟨nonempty, ends, first⟩ fits hears flows
  | dropped done dropped => exact .dropped done dropped

/-- A complete line that is heard is read. -/
theorem readlineLoop_hears {more : List UInt8}
    (hears : HearsLine hal uart more after) (received : List UInt8)
    (nonempty : more ≠ [])
    (fits : (received ++ more).length ≤ client.recvBufsz)
    (ends : Ends client (received ++ more))
    (first : ∀ count, 0 < count → count < more.length →
      ¬ Ends client (received ++ more.take count))
    {turns : Nat} (enough : more.length ≤ turns) (ch : UInt8) :
    readlineLoop hal client turns received false (received.getLastD 0) ch
        uart =
      some ⟨(received ++ more).length, received ++ more, after⟩ := by
  induction hears generalizing received turns ch with
  | nil => exact absurd rfl nonempty
  | @cons uart middle after byte line takes rest inductionHypothesis =>
      rw [List.length_cons] at enough
      obtain ⟨turns, rfl⟩ :=
        Nat.exists_eq_add_of_le' (Nat.le_of_add_left_le enough)
      rw [readlineLoop_takes takes]
      dsimp only
      have room : received.length < client.recvBufsz := by
        rw [List.length_append, List.length_cons] at fits
        omega
      rw [if_pos room, if_pos room, if_neg Bool.false_ne_true]
      cases line with
      | nil =>
          cases rest
          rw [if_pos ((ends_concat received byte).mp ends)]
      | cons second line =>
          have running := first 1 (by decide) (by simp)
          rw [if_neg (mt (ends_concat received byte).mpr running)]
          have cons : received ++ byte :: second :: line =
              received ++ [byte] ++ second :: line := by simp
          have goes := inductionHypothesis (received ++ [byte])
            (List.cons_ne_nil _ _)
            (by
              simp only [List.length_append, List.length_cons,
                List.length_nil] at fits ⊢
              omega)
            (by rw [← cons]; exact ends)
            (fun count positive small => by
              have later := first (count + 1) (Nat.succ_pos _)
                (Nat.succ_lt_succ small)
              rw [List.take_succ_cons] at later
              rw [List.append_assoc]
              exact later)
            (Nat.le_of_succ_le_succ enough) byte
          rw [List.getLastD_concat] at goes
          rw [goes, cons]

theorem atRecvReadline_hears (formed : uart.ring.WellFormed)
    {line : List UInt8} (hears : HearsLine hal uart line after)
    (complete : CompleteLine client line)
    (fits : line.length ≤ client.recvBufsz) :
    atRecvReadline hal client uart = some ⟨line.length, line, after⟩ := by
  have flows := (hears.flows formed).length_le
  exact readlineLoop_hears hears [] complete.nonempty fits complete.ends
    complete.first (by omega) 0

/-- A silent wait ends the reading. -/
theorem atRecvReadline_silent (silent : Silent hal uart after) :
    atRecvReadline hal client uart =
      some ⟨errTcpNothingToRead, [], after⟩ :=
  readlineLoop_fails silent nofun _ _ _ _

end Lines

end At
end UIoT
