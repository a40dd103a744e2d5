import UIoT.At.M26

/-!
# Modules that keep what they receive

An ESP8266 or an EC20 module keeps what a link receives until it is asked for
it.  The handlers of their answers read the rest of a line into an array, with
no test of its end, and move the data that were asked for to the buffer of the
link.  An access outside an array has no result.
-/

namespace UIoT
namespace At

open DecimalDigits (digits)

/-! ## Arrays that are filled up to a byte -/

/-- The loops that fill a cleared array until a byte is in it. -/
def arrayLoop (hal : HalTimer) (last : UInt8) :
    (left : Nat) → (text : List UInt8) → Uart → Option (List UInt8 × Uart)
  | 0, _, _ => none
  | left + 1, text, uart => do
      let done ← atClientGetchar hal uart 0 getReceiveTimeoutMs
      let text := text ++ [done.pch]
      if done.pch = last then some (text, done.uart)
      else arrayLoop hal last left text done.uart

/-- The numbers that `sscanf` stores for so many `%d` with commas between
them. -/
def sscanfNumbers : (count : Nat) → (text : List UInt8) → List Int
  | 0, _ => []
  | count + 1, text =>
      match sscanfDecimal text with
      | none => []
      | some (number, 44 :: text) => number :: sscanfNumbers count text
      | some (number, _) => [number]

/-- `sscanf` of a command with a name and two numbers, when it converts both. -/
def sscanfCommand (name cmd : List UInt8) : Option (Int × Int) :=
  if name <+: cmd then
    match sscanfNumbers 2 (cmd.drop name.length) with
    | [linkNum, number] => some (linkNum, number)
    | _ => none
  else none

/-! ## The ESP8266 module -/

/-- What the format of the command asks for the received data with. -/
def ciprecvdata : List UInt8 := ascii "AT+CIPRECVDATA="

/-- `urc_recvdata_recv_func` of `esp8266.c`, which always succeeds, behind a
command. -/
def urcRecvdataRecvFunc (hal : HalTimer) (cmd : List UInt8) (uart : Uart)
    (rings : Rings) : Option (Uart × Rings) := do
  let (_, uart) ← arrayLoop hal 58 10 [] uart
  match sscanfCommand ciprecvdata cmd with
  | some (linkNum, recvDataNum) =>
      dataLoop hal linkNum recvDataNum.toNat 0 uart rings
  | none => some (uart, rings)

/-- `urc_recvlen_recv_func`: what it returns, and `esp8266_recv_len`. -/
def urcRecvlenRecvFunc (hal : HalTimer) (uart : Uart)
    (recvLen : Fin 5 → Int) : Option (Ret × Uart × (Fin 5 → Int)) := do
  let (text, uart) ← arrayLoop hal 10 30 [] uart
  if 30 ≤ text.length then none
  else
    let numbers := sscanfNumbers 5 (stringOf text)
    some (if numbers.length = 5 then .successRet else .failureRet, uart,
      fun link => numbers[link.val]?.getD (recvLen link))

/-! ## The EC20 module -/

/-- What the format of the command asks for received data and their lengths
with. -/
def qird : List UInt8 := ascii "AT+QIRD="

/-- `urc_qird_recv_func` of `ec20.c`, which always succeeds, behind a command,
with `ec20_recv_len`. -/
def urcQirdRecvFunc (hal : HalTimer) (cmd : List UInt8) (uart : Uart)
    (rings : Rings) (recvLen : Fin 3 → Int) :
    Option (Uart × Rings × (Fin 3 → Int)) := do
  let (text, uart) ← arrayLoop hal 10 10 [] uart
  match sscanfCommand qird cmd with
  | none => some (uart, rings, recvLen)
  | some (linkNum, recvDataNum) =>
      if 10 ≤ text.length then none
      else if 0 < recvDataNum then
        if sscanfNumbers 1 (stringOf text) = [0] then
          some (uart, rings, recvLen)
        else
          let (uart, rings) ←
            dataLoop hal linkNum recvDataNum.toNat 0 uart rings
          some (uart, rings, recvLen)
      else
        match sscanfNumbers 3 (stringOf text) with
        | [_, _, unreadLen] => do
            let link ← linkOf linkNum
            some (uart, rings, Function.update recvLen link unreadLen)
        | _ => some (uart, rings, recvLen)

/-! ## Texts of numbers -/

/-- Numbers with commas between them. -/
def joined : List Nat → List UInt8
  | [] => []
  | [number] => digits number
  | number :: numbers => digits number ++ 44 :: joined numbers

/-- The command that asks a link for so many bytes, or for their lengths. -/
def command (name : List UInt8) (link count : Nat) : List UInt8 :=
  name ++ joined [link, count] ++ [13, 10]

/-- `%d` reads digits without white space before them just the same. -/
theorem sscanfDecimal_joined {number : Nat} (small : number < 2 ^ 31)
    {rest : List UInt8} (ends : ∀ byte ∈ rest.head?, isDigit byte = false) :
    sscanfDecimal (digits number ++ rest) = some ((number : Int), rest) :=
  sscanfDecimal_digits small ends

/-- What ends a line is neither a digit nor a comma. -/
theorem lineEnd_ends : ∀ byte ∈ ([13, 10] : List UInt8).head?,
    isDigit byte = false ∧ byte ≠ 44 := by
  intro byte head
  obtain rfl : 13 = byte := Option.some.inj head
  decide

/-- Numbers that are printed are scanned, whatever follows that is neither a
digit nor a comma. -/
theorem sscanfNumbers_joined {numbers : List Nat}
    (small : ∀ number ∈ numbers, number < 2 ^ 31) {rest : List UInt8}
    (ends : ∀ byte ∈ rest.head?, isDigit byte = false ∧ byte ≠ 44)
    (nonempty : numbers ≠ []) :
    sscanfNumbers numbers.length (joined numbers ++ rest) =
      numbers.map Int.ofNat := by
  induction numbers with
  | nil => exact absurd rfl nonempty
  | cons number numbers inductionHypothesis =>
      obtain ⟨first, others⟩ := List.forall_mem_cons.mp small
      cases numbers with
      | nil =>
          have scanned := sscanfDecimal_joined first
            (fun byte head => (ends byte head).1)
          have last : sscanfNumbers 1 (digits number ++ rest) =
              [(number : Int)] := by
            rw [sscanfNumbers, scanned]
            split
            · rename_i none
              cases none
            · rename_i same
              obtain ⟨rfl, comma⟩ := Prod.mk.inj (Option.some.inj same)
              exact absurd rfl (ends 44 (by rw [comma]; rfl)).2
            · rename_i same
              obtain ⟨rfl, -⟩ := Prod.mk.inj (Option.some.inj same)
              rfl
          exact last
      | cons next numbers =>
          have comma : ∀ byte ∈
              (44 :: (joined (next :: numbers) ++ rest)).head?,
              isDigit byte = false := by
            intro byte head
            obtain rfl := Option.some.inj head
            rfl
          have scanned := sscanfDecimal_joined first comma
          have text : joined (number :: next :: numbers) ++ rest =
              digits number ++ 44 :: (joined (next :: numbers) ++ rest) :=
            List.append_assoc ..
          rw [text, List.length_cons, sscanfNumbers, scanned]
          have behind := inductionHypothesis others (List.cons_ne_nil _ _)
          exact congrArg ((number : Int) :: ·) behind

/-- A command is scanned as it was printed. -/
theorem sscanfCommand_command {name : List UInt8} {link count : Nat}
    (link_small : link < 2 ^ 31) (count_small : count < 2 ^ 31) :
    sscanfCommand name (command name link count) =
      some ((link : Int), (count : Int)) := by
  have text : command name link count =
      name ++ (joined [link, count] ++ [13, 10]) := List.append_assoc ..
  have small : ∀ number ∈ [link, count], number < 2 ^ 31 := by
    intro number mem
    rcases List.mem_pair.mp mem with rfl | rfl
    · exact link_small
    · exact count_small
  have scanned : sscanfNumbers 2 (joined [link, count] ++ [13, 10]) =
      [(link : Int), (count : Int)] :=
    sscanfNumbers_joined small lineEnd_ends (List.cons_ne_nil _ _)
  unfold sscanfCommand
  rw [text, if_pos (List.prefix_append ..), List.drop_left, scanned]

/-! ## What the loop leaves in the array -/

section Waits

variable {hal : HalTimer} {uart : Uart}

/-- The byte is the first of its kind that is left in the array. -/
def EndsAt (hal : HalTimer) (uart : Uart) (last : UInt8) (place : Nat) : Prop :=
  (heard hal uart place).getD 0 = last ∧
    ∀ earlier < place, (heard hal uart earlier).getD 0 ≠ last

theorem exists_endsAt {last : UInt8} {bound : Nat}
    (found : ∃ place < bound, (heard hal uart place).getD 0 = last) :
    ∃ place < bound, EndsAt hal uart last place := by
  classical
  obtain ⟨place, small, ends⟩ := found
  have some_place : ∃ place, (heard hal uart place).getD 0 = last :=
    ⟨place, ends⟩
  exact ⟨Nat.find some_place,
    Nat.lt_of_le_of_lt (Nat.find_min' some_place ends) small,
    Nat.find_spec some_place,
    fun earlier before => Nat.find_min some_place before⟩

theorem arrayLoop_turn (formed : uart.ring.WellFormed) (last : UInt8)
    (left count : Nat) :
    arrayLoop hal last (left + 1) (textFrom hal uart 0 count)
        (waited hal uart count) =
      if (heard hal uart count).getD 0 = last then
        some (textFrom hal uart 0 (count + 1), waited hal uart (count + 1))
      else
        arrayLoop hal last left (textFrom hal uart 0 (count + 1))
          (waited hal uart (count + 1)) := by
  obtain ⟨done, returns, pch, after⟩ := getchar_waited hal formed count 0
  have text : textFrom hal uart 0 (count + 1) =
      textFrom hal uart 0 count ++ [done.pch] := by
    rw [textFrom_succ, pch, Nat.zero_add]
  rw [arrayLoop, returns]
  change (if done.pch = last then _ else _) = _
  rw [← pch, ← after, ← text]

/-- Within the array the loop ends behind the byte. -/
theorem arrayLoop_ends (formed : uart.ring.WellFormed) {last : UInt8}
    {place : Nat} (ends : EndsAt hal uart last place) {left count : Nat}
    (before : count ≤ place) (room : place < count + left) :
    arrayLoop hal last left (textFrom hal uart 0 count)
        (waited hal uart count) =
      some (textFrom hal uart 0 (place + 1), waited hal uart (place + 1)) := by
  induction left generalizing count with
  | zero => omega
  | succ left inductionHypothesis =>
      rw [arrayLoop_turn formed]
      by_cases here : count = place
      · subst here
        rw [if_pos ends.1]
      · rw [if_neg (ends.2 count (by omega))]
        exact inductionHypothesis (by omega) (by omega)

/-- Without the byte the loop leaves the array. -/
theorem arrayLoop_leaves (formed : uart.ring.WellFormed) {last : UInt8}
    {left count : Nat}
    (absent : ∀ place < count + left, (heard hal uart place).getD 0 ≠ last) :
    arrayLoop hal last left (textFrom hal uart 0 count)
      (waited hal uart count) = none := by
  induction left generalizing count with
  | zero => rfl
  | succ left inductionHypothesis =>
      rw [arrayLoop_turn formed, if_neg (absent count (by omega))]
      exact inductionHypothesis fun place small => absent place (by omega)

/-- A line that is heard ends where it does, and what follows is heard behind
it. -/
structure BringsLine (hal : HalTimer) (uart : Uart) (line : List UInt8)
    (last : UInt8) (rest : List UInt8) : Prop where
  ends : EndsAt hal uart last line.length
  text : textFrom hal uart 0 (line.length + 1) = line ++ [last]
  behind : ∀ index < rest.length,
    heard hal uart (line.length + 1 + index) = rest[index]?

theorem bringsLine {line rest : List UInt8} {last : UInt8}
    (brings : Hears hal uart (line ++ [last] ++ rest)) (absent : last ∉ line) :
    BringsLine hal uart line last rest := by
  have length : (line ++ [last]).length = line.length + 1 :=
    List.length_append
  have whole : (line ++ [last] ++ rest).length =
      line.length + 1 + rest.length := by
    rw [List.length_append, length]
  have byte {index : Nat} (inside : index < line.length + 1) :
      heard hal uart index = (line ++ [last])[index]? := by
    rw [brings index (by omega), List.getElem?_append_left (by omega)]
  refine ⟨⟨?_, fun earlier before same => ?_⟩, ?_, fun index small => ?_⟩
  · rw [byte (Nat.lt_succ_self _), List.getElem?_append_right (Nat.le_refl _),
      Nat.sub_self]
    rfl
  · rw [byte (by omega), List.getElem?_append_left before,
      List.getElem?_eq_getElem before, Option.getD_some] at same
    exact absent (same ▸ List.getElem_mem before)
  · have brings' : ∀ index < (line ++ [last] ++ rest).length,
        heard hal uart (0 + index) = (line ++ [last] ++ rest)[index]? := by
      intro index small
      rw [Nat.zero_add]
      exact brings index small
    rw [textFrom_header brings' (Nat.le_of_eq length.symm), ← length,
      List.take_length]
  · rw [brings _ (by omega), List.getElem?_append_right (by omega), length,
      Nat.add_sub_cancel_left]

/-- A line that is heard is left in the array with its last byte, if it has room
for both. -/
theorem BringsLine.arrayLoop {line rest : List UInt8} {last : UInt8}
    (brings : BringsLine hal uart line last rest)
    (formed : uart.ring.WellFormed) (size : Nat) :
    At.arrayLoop hal last size [] uart =
      if line.length < size then
        some (line ++ [last], waited hal uart (line.length + 1))
      else none := by
  split
  · rename_i room
    have loops := arrayLoop_ends formed brings.ends (Nat.zero_le _)
      (Nat.lt_of_lt_of_eq room (Nat.zero_add size).symm)
    rw [brings.text] at loops
    exact loops
  · rename_i long
    have absent : ∀ place < 0 + size, (heard hal uart place).getD 0 ≠ last :=
      fun place small => brings.ends.2 place (by omega)
    exact arrayLoop_leaves formed absent

/-! ## Received data of the ESP8266 module -/

/-- The handler stays within its arrays: a colon comes among the first ten
bytes, and there is such a link if data were asked for. -/
structure RecvdataSafe (hal : HalTimer) (uart : Uart) (cmd : List UInt8) :
    Prop where
  colon : ∃ place < 10, (heard hal uart place).getD 0 = 58
  link : ∀ linkNum recvDataNum,
    sscanfCommand ciprecvdata cmd = some (linkNum, recvDataNum) →
      0 < recvDataNum → 0 ≤ linkNum ∧ linkNum < 3

/-- Behind the colon the data are moved that were asked for. -/
theorem urcRecvdataRecvFunc_eq (formed : uart.ring.WellFormed)
    (cmd : List UInt8) (rings : Rings) {place : Nat} (small : place < 10)
    (ends : EndsAt hal uart 58 place) :
    urcRecvdataRecvFunc hal cmd uart rings =
      match sscanfCommand ciprecvdata cmd with
      | some (linkNum, recvDataNum) =>
          dataLoop hal linkNum recvDataNum.toNat 0
            (waited hal uart (place + 1)) rings
      | none => some (waited hal uart (place + 1), rings) := by
  have loops : arrayLoop hal 58 10 [] uart = _ :=
    arrayLoop_ends formed ends (Nat.zero_le _)
      (Nat.lt_of_lt_of_eq small (Nat.zero_add 10).symm)
  unfold urcRecvdataRecvFunc
  rw [loops]
  rfl

theorem urcRecvdataRecvFunc_isSome (formed : uart.ring.WellFormed)
    (cmd : List UInt8) (rings : Rings) :
    (urcRecvdataRecvFunc hal cmd uart rings).isSome ↔
      RecvdataSafe hal uart cmd := by
  by_cases colon : ∃ place < 10, (heard hal uart place).getD 0 = 58
  · obtain ⟨place, small, ends⟩ := exists_endsAt colon
    rw [urcRecvdataRecvFunc_eq formed cmd rings small ends]
    constructor
    · intro handled
      refine ⟨colon, fun linkNum recvDataNum scanned positive => ?_⟩
      rw [scanned] at handled
      have valid := (dataLoop_isSome formed linkNum recvDataNum.toNat _ 0
        rings).mp handled (by omega)
      exact (linkOf_isSome linkNum).mp valid
    · intro safe
      split
      · rename_i linkNum recvDataNum scanned
        apply (dataLoop_isSome formed linkNum recvDataNum.toNat _ 0 rings).mpr
        intro positive
        exact (linkOf_isSome linkNum).mpr
          (safe.link linkNum recvDataNum scanned (by omega))
      · rfl
  · have absent : ∀ place < 0 + 10, (heard hal uart place).getD 0 ≠ 58 :=
      fun place small same => colon ⟨place, by omega, same⟩
    have loops : arrayLoop hal 58 10 [] uart = none :=
      arrayLoop_leaves formed absent
    have leaves : urcRecvdataRecvFunc hal cmd uart rings = none := by
      unfold urcRecvdataRecvFunc
      rw [loops]
      rfl
    rw [leaves]
    exact iff_of_false Bool.false_ne_true fun safe => colon safe.colon

theorem linkOf_val (link : Fin 3) : linkOf (link.val : Int) = some link := by
  unfold linkOf
  rw [dif_pos (by omega)]
  rfl

/-- Digits have no byte that is not one. -/
theorem not_mem_digits {byte : UInt8} (other : isDigit byte = false)
    (number : Nat) : byte ∉ digits number := by
  intro mem
  have inside := DecimalDigits.digits_range number byte mem
  have digit : isDigit byte = true := by
    unfold isDigit
    simp only [Bool.and_eq_true, decide_eq_true_eq]
    exact inside
  rw [digit] at other
  cases other

/-- Buffers of fourteen bytes that all hold the text. -/
def holding (text : String) : Rings :=
  fun _ => arrive (ringBuffInit (fun _ => 0) 14) (ascii text)

theorem holding_usable (text : String) (link : Fin 3) :
    0 < (holding text link).size → (holding text link).WellFormed :=
  fun _ => (arrive_arrives (init_stored (by decide)).1 (ascii text)).formed

/-- What the module answers behind its name when it hands on data. -/
def recvdataAnswer (data : List UInt8) : List UInt8 :=
  44 :: digits data.length ++ [58] ++ data

/-- The handler stays within its arrays, and moves the data to the buffer of the
link that they were asked of, if and only if a colon comes among the first ten
bytes and there is such a link. -/
theorem urcRecvdataRecvFunc_moves_iff (hal : HalTimer)
    (formed : uart.ring.WellFormed) (cmd : List UInt8) (rings : Rings)
    (usable : ∀ link, 0 < (rings link).size → (rings link).WellFormed) :
    ((urcRecvdataRecvFunc hal cmd uart rings).isSome ∧
      ∀ link : Fin 3, ∀ data : List UInt8,
        cmd = command ciprecvdata link data.length →
          Hears hal uart (recvdataAnswer data) →
            data.length ≤ (rings link).room →
              ∃ after moved,
                urcRecvdataRecvFunc hal cmd uart rings =
                    some (after, moved) ∧
                  (moved link).stored = (rings link).stored ++ data ∧
                  ∀ other, other ≠ link → moved other = rings other) ↔
      RecvdataSafe hal uart cmd := by
  rw [urcRecvdataRecvFunc_isSome formed]
  refine ⟨fun both => both.1, fun safe => ⟨safe, ?_⟩⟩
  intro link data asked brings fits
  have absent : 58 ∉ 44 :: digits data.length := by
    rw [List.mem_cons, not_or]
    exact ⟨by decide, not_mem_digits (by decide) _⟩
  have line := bringsLine brings absent
  obtain ⟨place, small, colon⟩ := safe.colon
  have short : (44 :: digits data.length).length < 10 := by
    by_contra long
    exact line.ends.2 place (by omega) colon
  have count_small : data.length < 10 ^ 8 :=
    DecimalDigits.lt_of_length_digits_le (by decide) (by
      rw [List.length_cons] at short
      omega)
  rw [urcRecvdataRecvFunc_eq formed cmd rings short line.ends, asked,
    sscanfCommand_command (by omega) (by omega)]
  exact dataLoop_moves formed (linkOf_val link) 0 line.behind (usable link) fits

/-- Five bytes for the second link, a colon among them, behind three that its
buffer has. -/
theorem urcRecvdataRecvFunc_moves_five :
    ∃ after moved,
      urcRecvdataRecvFunc .ticks (command ciprecvdata 1 5)
          (delivered ",5:a:b\nc") (holding "xyz") = some (after, moved) ∧
        (moved 1).stored = (holding "xyz" 1).stored ++ ascii "a:b\nc" ∧
        ∀ other, other ≠ 1 → moved other = holding "xyz" other := by
  have stored : (delivered ",5:a:b\nc").ring.stored =
      recvdataAnswer (ascii "a:b\nc") ++ [] := by decide +kernel
  have formed := delivered_wellFormed ",5:a:b\nc"
  have brings := hears_of_stored .ticks formed stored
  have safe : RecvdataSafe .ticks (delivered ",5:a:b\nc")
      (command ciprecvdata 1 5) := by
    refine ⟨⟨2, by decide, by decide +kernel⟩, ?_⟩
    intro linkNum recvDataNum scanned positive
    rw [sscanfCommand_command (by decide) (by decide)] at scanned
    obtain ⟨rfl, -⟩ := Prod.mk.inj (Option.some.inj scanned)
    decide
  have moves := (urcRecvdataRecvFunc_moves_iff .ticks formed
    (command ciprecvdata 1 5) (holding "xyz") (holding_usable "xyz")).mpr safe
  exact moves.2 1 (ascii "a:b\nc") (by decide +kernel) brings
    (by decide +kernel)

/-! ## Lines of numbers -/

theorem not_mem_joined {byte : UInt8} (other : isDigit byte = false)
    (comma : byte ≠ 44) (numbers : List Nat) : byte ∉ joined numbers := by
  induction numbers with
  | nil => exact List.not_mem_nil
  | cons number numbers inductionHypothesis =>
      cases numbers with
      | nil => exact not_mem_digits other number
      | cons next numbers =>
          intro mem
          rcases List.mem_append.mp mem with digit | behind
          · exact not_mem_digits other number digit
          · rcases List.mem_cons.mp behind with same | later
            · exact comma same
            · exact inductionHypothesis later

/-- A text of numbers is the whole string in its array. -/
theorem stringOf_joined (numbers : List Nat) :
    stringOf (joined numbers ++ [13, 10]) = joined numbers ++ [13, 10] := by
  apply List.takeWhile_eq_self_iff.mpr
  intro byte mem
  refine decide_eq_true fun zero => ?_
  rcases List.mem_append.mp mem with number | ending
  · rw [zero] at number
    exact not_mem_joined (by decide) (by decide) numbers number
  · rw [zero] at ending
    exact absurd ending (by decide)

/-- A line of numbers is scanned as it was printed. -/
theorem sscanfNumbers_line {numbers : List Nat}
    (small : ∀ number ∈ numbers, number < 2 ^ 31) (nonempty : numbers ≠ []) :
    sscanfNumbers numbers.length (stringOf (joined numbers ++ [13, 10])) =
      numbers.map Int.ofNat := by
  rw [stringOf_joined]
  exact sscanfNumbers_joined small lineEnd_ends nonempty

/-- What the ESP8266 module answers behind its name when it is asked for what
its links have received. -/
def recvlenAnswer (numbers : List Nat) : List UInt8 :=
  joined numbers ++ [13, 10]

/-- The number of a link. -/
def lengthOf (numbers : List Nat) (link : Fin 5) : Int :=
  (numbers[link.val]?.getD 0 : Nat)

/-- The handler stores the five numbers of an answer if and only if the line is
shorter than its array. -/
theorem urcRecvlenRecvFunc_stores_iff (hal : HalTimer)
    (formed : uart.ring.WellFormed) {numbers : List Nat}
    (five : numbers.length = 5) (small : ∀ number ∈ numbers, number < 2 ^ 31)
    (brings : Hears hal uart (recvlenAnswer numbers)) (recvLen : Fin 5 → Int) :
    (∃ after, urcRecvlenRecvFunc hal uart recvLen =
        some (.successRet, after, lengthOf numbers)) ↔
      (recvlenAnswer numbers).length < 30 := by
  have parts : recvlenAnswer numbers =
      joined numbers ++ [13] ++ [10] ++ [] := by
    unfold recvlenAnswer
    simp only [List.append_assoc, List.append_nil]
    rfl
  have absent : 10 ∉ joined numbers ++ [13] := by
    rw [List.mem_append, not_or]
    exact ⟨not_mem_joined (by decide) (by decide) numbers, by decide⟩
  rw [parts] at brings
  have loops := (bringsLine brings absent).arrayLoop formed 30
  have text : joined numbers ++ [13] ++ [10] = recvlenAnswer numbers := by
    rw [parts, List.append_nil]
  have length : (recvlenAnswer numbers).length =
      (joined numbers ++ [13]).length + 1 := by
    rw [← text]
    exact List.length_append
  have nonempty : numbers ≠ [] := by
    rintro rfl
    cases five
  have scanned := sscanfNumbers_line small nonempty
  rw [five] at scanned
  unfold urcRecvlenRecvFunc
  rw [loops, text]
  by_cases room : (joined numbers ++ [13]).length < 30
  · rw [if_pos room]
    by_cases fits : (recvlenAnswer numbers).length < 30
    · refine iff_of_true ?_ fits
      have notLonger : ¬30 ≤ (recvlenAnswer numbers).length := by omega
      refine ⟨waited hal uart ((joined numbers ++ [13]).length + 1), ?_⟩
      change (if 30 ≤ (recvlenAnswer numbers).length then none else _) = _
      rw [if_neg notLonger]
      unfold recvlenAnswer
      rw [scanned, List.length_map, if_pos five]
      have each : (fun link : Fin 5 =>
          (numbers.map Int.ofNat)[link.val]?.getD (recvLen link)) =
            lengthOf numbers := by
        funext link
        have inside : link.val < numbers.length :=
          Nat.lt_of_lt_of_eq link.isLt five.symm
        unfold lengthOf
        rw [List.getElem?_map, List.getElem?_eq_getElem inside]
        rfl
      rw [each]
    · refine iff_of_false ?_ fits
      rintro ⟨after, returns⟩
      have longer : 30 ≤ (recvlenAnswer numbers).length := by omega
      change (if 30 ≤ (recvlenAnswer numbers).length then none else _) = _
        at returns
      rw [if_pos longer] at returns
      cases returns
  · rw [if_neg room]
    refine iff_of_false ?_ (by omega)
    rintro ⟨after, returns⟩
    cases returns

/-! ## Answers of the EC20 module -/

/-- What the EC20 module answers behind its name: the numbers, and behind their
line the data. -/
def qirdAnswer (numbers : List Nat) (data : List UInt8) : List UInt8 :=
  32 :: joined numbers ++ [13] ++ [10] ++ data

/-- A line of numbers is handled if they are shorter than seven bytes. -/
theorem urcQirdRecvFunc_eq (formed : uart.ring.WellFormed) {link count : Nat}
    (link_small : link < 2 ^ 31) (count_small : count < 2 ^ 31)
    {numbers : List Nat} {data : List UInt8}
    (brings : BringsLine hal uart (32 :: joined numbers ++ [13]) 10 data)
    (rings : Rings) (recvLen : Fin 3 → Int) :
    urcQirdRecvFunc hal (command qird link count) uart rings recvLen =
      if (joined numbers).length < 7 then
        let uart := waited hal uart ((32 :: joined numbers ++ [13]).length + 1)
        let text := 32 :: stringOf (joined numbers ++ [13, 10])
        if 0 < (count : Int) then
          if sscanfNumbers 1 text = [0] then some (uart, rings, recvLen)
          else do
            let (uart, rings) ← dataLoop hal link count 0 uart rings
            some (uart, rings, recvLen)
        else
          match sscanfNumbers 3 text with
          | [_, _, unreadLen] => do
              let link ← linkOf link
              some (uart, rings, Function.update recvLen link unreadLen)
          | _ => some (uart, rings, recvLen)
      else none := by
  have loops := brings.arrayLoop formed 10
  have text : 32 :: joined numbers ++ [13] ++ [10] =
      32 :: (joined numbers ++ [13, 10]) := by
    rw [List.append_assoc]
    rfl
  have length : (32 :: joined numbers ++ [13]).length =
      (joined numbers).length + 2 := by
    rw [List.length_append, List.length_cons]
    rfl
  have whole : (32 :: (joined numbers ++ [13, 10])).length =
      (joined numbers).length + 3 := by
    rw [List.length_cons, List.length_append]
    rfl
  rw [text] at loops
  unfold urcQirdRecvFunc
  rw [loops, sscanfCommand_command link_small count_small]
  by_cases room : (32 :: joined numbers ++ [13]).length < 10
  · rw [if_pos room]
    change (if 10 ≤ (32 :: (joined numbers ++ [13, 10])).length then none
      else _) = _
    rw [whole]
    by_cases short : (joined numbers).length < 7
    · rw [if_pos short, if_neg (by omega)]
      rfl
    · rw [if_neg short, if_pos (by omega)]
  · rw [if_neg room, if_neg (by omega)]
    rfl

theorem sscanfNumbers_space (count : Nat) (text : List UInt8) :
    sscanfNumbers (count + 1) (32 :: text) = sscanfNumbers (count + 1) text :=
  rfl

/-- The answer to a question for the lengths of a link stores the last of them,
if they have few digits; with more the line leaves the array. -/
theorem urcQirdRecvFunc_length_iff (hal : HalTimer)
    (formed : uart.ring.WellFormed) (link : Fin 3) {total read unread : Nat}
    (small : total < 2 ^ 31 ∧ read < 2 ^ 31 ∧ unread < 2 ^ 31)
    (brings : Hears hal uart (qirdAnswer [total, read, unread] []))
    (rings : Rings) (recvLen : Fin 3 → Int) :
    let count := (digits total).length + (digits read).length +
      (digits unread).length
    ((∃ after, urcQirdRecvFunc hal (command qird link 0) uart rings recvLen =
        some (after, rings, Function.update recvLen link unread)) ↔ count ≤ 4) ∧
      (urcQirdRecvFunc hal (command qird link 0) uart rings recvLen = none ↔
        4 < count) := by
  have absent : 10 ∉ 32 :: joined [total, read, unread] ++ [13] := by
    rw [List.mem_append, List.mem_cons, not_or, not_or]
    exact ⟨⟨by decide, not_mem_joined (by decide) (by decide) _⟩, by decide⟩
  have length : (joined [total, read, unread]).length =
      (digits total).length + (digits read).length +
        (digits unread).length + 2 := by
    change (digits total ++ 44 :: (digits read ++ 44 :: digits unread)).length
      = _
    simp only [List.length_append, List.length_cons]
    omega
  have each : ∀ number ∈ [total, read, unread], number < 2 ^ 31 := by
    intro number mem
    simp only [List.mem_cons, List.not_mem_nil, or_false] at mem
    omega
  have scanned : sscanfNumbers 3
      (stringOf (joined [total, read, unread] ++ [13, 10])) =
        [(total : Int), (read : Int), (unread : Int)] :=
    sscanfNumbers_line each (List.cons_ne_nil _ _)
  dsimp only
  rw [urcQirdRecvFunc_eq formed (by omega) (by decide)
    (bringsLine brings absent)]
  by_cases fits : (joined [total, read, unread]).length < 7
  · rw [if_pos fits]
    dsimp only
    rw [if_neg (by decide), sscanfNumbers_space, scanned]
    dsimp only
    rw [linkOf_val]
    exact ⟨iff_of_true ⟨_, rfl⟩ (by omega), iff_of_false nofun (by omega)⟩
  · rw [if_neg fits]
    exact ⟨iff_of_false nofun (by omega), iff_of_true rfl (by omega)⟩

/-- Two of three bytes are still to be read of the second link. -/
theorem urcQirdRecvFunc_length_two :
    ∃ after, urcQirdRecvFunc .linux (command qird 1 0)
        (delivered " 3,1,2\r\n") emptyRings (fun _ => 0) =
      some (after, emptyRings, Function.update (fun _ => 0) 1 2) := by
  have stored : (delivered " 3,1,2\r\n").ring.stored =
      qirdAnswer [3, 1, 2] [] ++ [] := by decide +kernel
  have formed := delivered_wellFormed " 3,1,2\r\n"
  have brings := hears_of_stored .linux formed stored
  exact (urcQirdRecvFunc_length_iff .linux formed 1 (by decide) brings
    emptyRings (fun _ => 0)).1.mpr (by decide)

/-- An answer with data is moved to the buffer of its link exactly if it has as
many bytes as were asked for and there is room for, or none, and their number
fits into the array. -/
theorem urcQirdRecvFunc_moves_iff (hal : HalTimer)
    (formed : uart.ring.WellFormed) (link : Fin 3) {asked : Nat}
    (positive : 0 < asked) (small : asked < 2 ^ 31) {data : List UInt8}
    (brings : Hears hal uart (qirdAnswer [data.length] data))
    (short : data.length < 2 ^ 31) {rings : Rings}
    (usable : ∀ link, 0 < (rings link).size → (rings link).WellFormed)
    (recvLen : Fin 3 → Int) :
    (∃ after moved,
      urcQirdRecvFunc hal (command qird link asked) uart rings recvLen =
          some (after, moved, recvLen) ∧
        (moved link).stored = (rings link).stored ++ data ∧
        ∀ other, other ≠ link → moved other = rings other) ↔
      (digits data.length).length < 7 ∧
        (data = [] ∨ data.length = min asked (rings link).room) := by
  have absent : 10 ∉ 32 :: joined [data.length] ++ [13] := by
    rw [List.mem_append, List.mem_cons, not_or, not_or]
    exact ⟨⟨by decide, not_mem_joined (by decide) (by decide) _⟩, by decide⟩
  have scanned : sscanfNumbers 1
      (stringOf (joined [data.length] ++ [13, 10])) = [(data.length : Int)] :=
    sscanfNumbers_line (List.forall_mem_singleton.mpr short)
      (List.cons_ne_nil _ _)
  have line := bringsLine brings absent
  rw [urcQirdRecvFunc_eq formed (by omega) small line]
  change (∃ after moved, (if (digits data.length).length < 7 then _ else _) = _
    ∧ _) ↔ _
  by_cases header : (digits data.length).length < 7
  case neg =>
    rw [if_neg header]
    exact iff_of_false nofun fun both => header both.1
  rw [if_pos header, and_iff_right header]
  dsimp only
  rw [if_pos (by omega), sscanfNumbers_space, scanned]
  by_cases empty : data = []
  · rw [if_pos (by rw [empty]; rfl)]
    refine iff_of_true ⟨_, rings, rfl, ?_, fun _ _ => rfl⟩ (.inl empty)
    rw [empty, List.append_nil]
  have nonzero : ¬[(data.length : Int)] = [0] := by
    intro same
    have none := (List.cons.inj same).1
    exact empty (List.eq_nil_of_length_eq_zero (by omega))
  obtain ⟨bytes, after, moved, loops, length, heardBytes, stored, others⟩ :=
    dataLoop_stores formed (linkOf_val link) asked
      ((32 :: joined [data.length] ++ [13]).length + 1) 0 (usable link)
  rw [if_neg nonzero, loops, or_iff_right empty]
  constructor
  · rintro ⟨_, _, returns, appended, -⟩
    obtain ⟨-, same⟩ := Prod.mk.inj (Option.some.inj returns)
    obtain ⟨rfl, -⟩ := Prod.mk.inj same
    rw [stored, List.append_cancel_left_eq] at appended
    rw [← appended, List.length_take, length, Nat.min_comm]
  · intro as_many
    rw [← length] at heardBytes as_many
    rw [take_of_hears heardBytes line.behind as_many] at stored
    exact ⟨after, moved, rfl, stored, others⟩

/-- Three bytes that were asked for, behind two that the buffer has. -/
theorem urcQirdRecvFunc_moves_three :
    ∃ after moved,
      urcQirdRecvFunc .linux (command qird 1 3) (delivered " 3\r\nabc")
          (holding "xy") (fun _ => 0) = some (after, moved, fun _ => 0) ∧
        (moved 1).stored = (holding "xy" 1).stored ++ ascii "abc" ∧
        ∀ other, other ≠ 1 → moved other = holding "xy" other := by
  have stored : (delivered " 3\r\nabc").ring.stored =
      qirdAnswer [3] (ascii "abc") ++ [] := by decide +kernel
  have formed := delivered_wellFormed " 3\r\nabc"
  have brings : Hears .linux (delivered " 3\r\nabc")
      (qirdAnswer [(ascii "abc").length] (ascii "abc")) :=
    hears_of_stored .linux formed stored
  exact (urcQirdRecvFunc_moves_iff .linux formed 1 (by decide) (by decide)
    brings (by decide +kernel) (holding_usable "xy") (fun _ => 0)).mpr
      ⟨by decide +kernel, .inr (by decide +kernel)⟩

end Waits

end At
end UIoT
