import UIoT.At.Reader
import UIoT.Shadow.Values

/-!
# Receiving from an M26 module

`HAL_AT_Read_Tcp` of `m26.c` looks for the header of received data in what the
serial line delivers, and distributes the bytes behind it among the buffers of
the links.  It goes on with whatever a call of the reader left in the variable,
whether the call succeeded or not.  An access outside an array has no result.
-/

namespace UIoT
namespace At

open Shadow (isSpace signOf)
open DecimalDigits (digits value)

/-! ## Scanning the header -/

/-- The bytes of digits. -/
def isDigit (byte : UInt8) : Bool := 48 ≤ byte && byte ≤ 57

/-- `sscanf` with `%d`: the number as an `int`, and the text behind it. -/
def sscanfDecimal (text : List UInt8) : Option (Int × List UInt8) :=
  let (negative, text) := signOf (text.dropWhile isSpace)
  match text.takeWhile isDigit with
  | [] => none
  | digits =>
      let number : Int := value 0 digits
      let long := if negative then max (-2 ^ 63) (-number)
        else min (2 ^ 63 - 1) number
      some ((Int32.ofInt long).toInt, text.dropWhile isDigit)

/-- `sscanf` with `"RECEIVE: %d, %d:\r\n"`, when it converts both numbers. -/
def sscanfReceive (text : List UInt8) : Option (Int × Int) :=
  if ascii "RECEIVE:" <+: text then
    match sscanfDecimal (text.drop 8) with
    | some (linkNum, 44 :: text) =>
        (sscanfDecimal text).map fun scanned => (linkNum, scanned.1)
    | _ => none
  else none

/-! ## The function -/

/-- `GET_RECEIVE_TIMEOUT_MS` -/
def getReceiveTimeoutMs : Nat := 1000

/-- `g_ring_tcp_buff` -/
abbrev Rings := Fin 3 → RingBuff

/-- The entry of `g_ring_tcp_buff` at an index, if there is one. -/
def linkOf (linkNum : Int) : Option (Fin 3) :=
  if inside : 0 ≤ linkNum ∧ linkNum < 3 then
    some ⟨linkNum.toNat, by omega⟩
  else none

/-- `client->pRingBuff->readpoint = temp_read_point` -/
def rewind (uart : Uart) (tempReadPoint : Nat) : Uart :=
  { uart with ring := { uart.ring with readpoint := tempReadPoint } }

/-- The loop that fills `temp_string` behind the plus sign.  The array was
cleared, so that a wait in which nothing comes leaves a zero. -/
def headerLoop (hal : HalTimer) (tempReadPoint : Nat) :
    (left : Nat) → (text : List UInt8) → Uart → Option (List UInt8 × Uart)
  | 0, _, _ => none
  | left + 1, text, uart => do
      let done ← atClientGetchar hal uart 0 getReceiveTimeoutMs
      if text.length = 8 ∧ text ≠ ascii "RECEIVE:" then
        some (text, rewind done.uart tempReadPoint)
      else if done.pch = 10 then some (text ++ [done.pch], done.uart)
      else headerLoop hal tempReadPoint left (text ++ [done.pch]) done.uart

/-- The loop that moves the data to the buffer of their link. -/
def dataLoop (hal : HalTimer) (linkNum : Int) :
    (turns : Nat) → (tempChar : UInt8) → Uart → Rings → Option (Uart × Rings)
  | 0, _, uart, rings => some (uart, rings)
  | turns + 1, tempChar, uart, rings => do
      let done ← atClientGetchar hal uart tempChar getReceiveTimeoutMs
      let link ← linkOf linkNum
      let pushed := ringBuffPushData (rings link) (fun _ => done.pch) 1
      dataLoop hal linkNum turns done.pch done.uart
        (Function.update rings link pushed.ring)

/-- What follows a plus sign: the header, closed with a zero in the array, and
the data it announces. -/
def readFrame (hal : HalTimer) (tempReadPoint : Nat) (uart : Uart)
    (rings : Rings) : Option (Uart × Rings) := do
  let (text, uart) ← headerLoop hal tempReadPoint 21 [] uart
  if 21 ≤ text.length then none
  else
    match sscanfReceive (CString.ofArray text).bytes with
    | some (linkNum, recNum) =>
        dataLoop hal linkNum recNum.toNat 43 uart rings
    | none => some (uart, rings)

/-- `HAL_AT_Read` -/
def halAtRead : Int := 0

/-- `HAL_AT_Read_Tcp` -/
def halAtReadTcp (hal : HalTimer) (uart : Uart) (rings : Rings) :
    Option (Int × Uart × Rings) := do
  let tempReadPoint := uart.ring.readpoint
  let last ← atClientGetchar hal uart 0 getReceiveTimeoutMs
  if last.pch = 13 then
    let temp ← atClientGetchar hal last.uart 0 getReceiveTimeoutMs
    if temp.pch = 10 then
      let next ← atClientGetchar hal temp.uart temp.pch getReceiveTimeoutMs
      if next.pch = 43 then
        let done ←
          readFrame hal temp.uart.ring.readpoint next.uart rings
        some (halAtRead, done)
      else some (halAtRead, next.uart, rings)
    else if temp.pch = 43 then
      let done ← readFrame hal tempReadPoint temp.uart rings
      some (halAtRead, done)
    else some (halAtRead, temp.uart, rings)
  else some (halAtRead, rewind last.uart tempReadPoint, rings)

/-! ## What the waits hear -/

section Waits

variable {hal : HalTimer} {uart : Uart}

/-- What a wait hears, and the state behind it. -/
def wait (hal : HalTimer) (uart : Uart) : Option UInt8 × Uart :=
  match atClientGetchar hal uart 0 getReceiveTimeoutMs with
  | some done => (done.popped.head?, done.uart)
  | none => (none, uart)

/-- The state behind some waits. -/
def waited (hal : HalTimer) (uart : Uart) : Nat → Uart
  | 0 => uart
  | count + 1 => (wait hal (waited hal uart count)).2

/-- What a wait hears behind some others. -/
def heard (hal : HalTimer) (uart : Uart) (index : Nat) : Option UInt8 :=
  (wait hal (waited hal uart index)).1

/-- A call leaves what the wait hears in the variable, or what was there. -/
theorem getchar_wait (formed : uart.ring.WellFormed) (pch : UInt8) :
    (∃ done, atClientGetchar hal uart pch getReceiveTimeoutMs = some done ∧
        done.pch = (wait hal uart).1.getD pch ∧
        done.uart = (wait hal uart).2) ∧
      (wait hal uart).2.ring.WellFormed := by
  obtain ⟨done, returns, reads⟩ :=
    atClientGetchar_reads hal formed 0 getReceiveTimeoutMs
  have waits : wait hal uart = (done.popped.head?, done.uart) := by
    unfold wait
    rw [returns]
  rw [waits]
  have called : atClientGetchar hal uart pch getReceiveTimeoutMs =
      some { done with pch := done.popped.headD pch } := by
    rw [atClientGetchar_pch, returns]
    rfl
  refine ⟨⟨_, called, ?_, rfl⟩, reads.formed⟩
  dsimp only
  cases done.popped <;> rfl

theorem waited_formed (formed : uart.ring.WellFormed) (count : Nat) :
    (waited hal uart count).ring.WellFormed := by
  induction count with
  | zero => exact formed
  | succ count inductionHypothesis =>
      exact (getchar_wait inductionHypothesis 0).2

/-- A call behind some waits. -/
theorem getchar_waited (hal : HalTimer) (formed : uart.ring.WellFormed)
    (count : Nat) (pch : UInt8) :
    ∃ done, atClientGetchar hal (waited hal uart count) pch
        getReceiveTimeoutMs = some done ∧
      done.pch = (heard hal uart count).getD pch ∧
      done.uart = waited hal uart (count + 1) :=
  (getchar_wait (waited_formed formed count) pch).1

/-- The bytes that some waits leave in a cleared array. -/
def textFrom (hal : HalTimer) (uart : Uart) (start count : Nat) : List UInt8 :=
  (List.range count).map fun index => (heard hal uart (start + index)).getD 0

theorem textFrom_succ (start count : Nat) :
    textFrom hal uart start (count + 1) =
      textFrom hal uart start count ++
        [(heard hal uart (start + count)).getD 0] := by
  simp [textFrom, List.range_succ]

@[simp] theorem length_textFrom (start count : Nat) :
    (textFrom hal uart start count).length = count := by
  simp [textFrom]

/-- The header loop in the middle of the text. -/
theorem headerLoop_turn (formed : uart.ring.WellFormed)
    (tempReadPoint left start count : Nat) :
    headerLoop hal tempReadPoint (left + 1) (textFrom hal uart start count)
        (waited hal uart (start + count)) =
      if count = 8 ∧ textFrom hal uart start count ≠ ascii "RECEIVE:" then
        some (textFrom hal uart start count,
          rewind (waited hal uart (start + count + 1)) tempReadPoint)
      else if (heard hal uart (start + count)).getD 0 = 10 then
        some (textFrom hal uart start (count + 1),
          waited hal uart (start + count + 1))
      else
        headerLoop hal tempReadPoint left
          (textFrom hal uart start (count + 1))
          (waited hal uart (start + (count + 1))) := by
  obtain ⟨done, returns, pch, after⟩ :=
    getchar_waited hal formed (start + count) 0
  rw [headerLoop]
  simp only [returns, Option.bind_eq_bind, Option.bind_some, length_textFrom]
  rw [after, pch, textFrom_succ]
  rfl

/-! ## The header loop -/

/-- The first newline of the text is at this place. -/
def LineAt (hal : HalTimer) (uart : Uart) (start place : Nat) : Prop :=
  (heard hal uart (start + place)).getD 0 = 10 ∧
    ∀ earlier < place, (heard hal uart (start + earlier)).getD 0 ≠ 10

/-- A newline has a first one in front of it or is it. -/
theorem exists_lineAt {start bound : Nat}
    (found : ∃ place < bound, (heard hal uart (start + place)).getD 0 = 10) :
    ∃ place < bound, LineAt hal uart start place := by
  classical
  obtain ⟨place, small, newline⟩ := found
  have some_place : ∃ place, (heard hal uart (start + place)).getD 0 = 10 :=
    ⟨place, newline⟩
  exact ⟨Nat.find some_place,
    Nat.lt_of_le_of_lt (Nat.find_min' some_place newline) small,
    Nat.find_spec some_place,
    fun earlier before => Nat.find_min some_place before⟩

/-- The loop ends behind the first newline, unless it stops at the ninth byte
because the text begins with another word. -/
theorem headerLoop_line (formed : uart.ring.WellFormed) {start place : Nat}
    (tempReadPoint : Nat) (line : LineAt hal uart start place)
    (named : 8 ≤ place → textFrom hal uart start 8 = ascii "RECEIVE:")
    {left count : Nat} (before : count ≤ place) (room : place < count + left) :
    headerLoop hal tempReadPoint left (textFrom hal uart start count)
        (waited hal uart (start + count)) =
      some (textFrom hal uart start (place + 1),
        waited hal uart (start + (place + 1))) := by
  induction left generalizing count with
  | zero => omega
  | succ left inductionHypothesis =>
      rw [headerLoop_turn formed, if_neg]
      · by_cases last : count = place
        · subst last
          rw [if_pos line.1]
          rfl
        · rw [if_neg (line.2 count (by omega))]
          exact inductionHypothesis (by omega) (by omega)
      · rintro ⟨rfl, other⟩
        exact other (named before)

/-- The loop stops at the ninth byte if the text begins with another word. -/
theorem headerLoop_other (formed : uart.ring.WellFormed) {start : Nat}
    (tempReadPoint : Nat)
    (other : textFrom hal uart start 8 ≠ ascii "RECEIVE:")
    (none : ∀ place < 8, (heard hal uart (start + place)).getD 0 ≠ 10)
    {left count : Nat} (before : count ≤ 8) (room : 8 < count + left) :
    headerLoop hal tempReadPoint left (textFrom hal uart start count)
        (waited hal uart (start + count)) =
      some (textFrom hal uart start 8,
        rewind (waited hal uart (start + 8 + 1)) tempReadPoint) := by
  induction left generalizing count with
  | zero => omega
  | succ left inductionHypothesis =>
      rw [headerLoop_turn formed]
      by_cases last : count = 8
      · subst last
        rw [if_pos ⟨rfl, other⟩]
      · rw [if_neg (fun both => last both.1),
          if_neg (none count (by omega))]
        exact inductionHypothesis (by omega) (by omega)

/-- Without a newline the loop leaves the array. -/
theorem headerLoop_long (formed : uart.ring.WellFormed) {start : Nat}
    (tempReadPoint : Nat)
    (named : textFrom hal uart start 8 = ascii "RECEIVE:")
    {left count : Nat}
    (none : ∀ place < count + left,
      (heard hal uart (start + place)).getD 0 ≠ 10) :
    headerLoop hal tempReadPoint left (textFrom hal uart start count)
      (waited hal uart (start + count)) = .none := by
  induction left generalizing count with
  | zero => rfl
  | succ left inductionHypothesis =>
      rw [headerLoop_turn formed, if_neg, if_neg (none count (by omega))]
      · exact inductionHypothesis fun place small => none place (by omega)
      · rintro ⟨rfl, other⟩
        exact other named

/-! ## The data loop -/

/-- The loop ends if there is nothing to move or there is such a link. -/
theorem dataLoop_isSome (formed : uart.ring.WellFormed) (linkNum : Int)
    (turns start : Nat) (tempChar : UInt8) (rings : Rings) :
    (dataLoop hal linkNum turns tempChar (waited hal uart start)
        rings).isSome ↔
      (0 < turns → (linkOf linkNum).isSome) := by
  induction turns generalizing start tempChar rings with
  | zero => exact iff_of_true rfl fun positive => absurd positive (by decide)
  | succ turns inductionHypothesis =>
      obtain ⟨done, returns, -, after⟩ :=
        getchar_waited hal formed start tempChar
      rw [dataLoop]
      simp only [returns, Option.bind_eq_bind, Option.bind_some]
      cases link : linkOf linkNum with
      | none => simp
      | some link' =>
          rw [Option.bind_some, after, inductionHypothesis, link]
          simp

/-- A byte that is pushed is stored if there is room, also where there is no
buffer at all. -/
theorem push_stores {ring : RingBuff}
    (usable : 0 < ring.size → ring.WellFormed) (byte : UInt8) :
    let after := (ringBuffPushData ring (fun _ => byte) 1).ring
    (0 < after.size → after.WellFormed) ∧ after.size = ring.size ∧
      after.stored = ring.stored ++ [byte].take ring.room := by
  by_cases positive : 0 < ring.size
  · have push := pushOne (usable positive) byte
    exact ⟨fun _ => push.formed, push.size, push.stored⟩
  · have none : ring.room = 0 := by
      unfold RingBuff.room
      omega
    have short : tooShort ring 1 := by
      unfold tooShort
      omega
    have same : (ringBuffPushData ring (fun _ => byte) 1).ring = ring := by
      unfold ringBuffPushData
      rw [if_pos short]
    dsimp only
    rw [same, none, List.take_zero, List.append_nil]
    exact ⟨usable, rfl, rfl⟩

/-- The loop reads as many bytes as it is told to, those that are heard among
them, and stores the first of them, as many as there is room for. -/
theorem dataLoop_stores (formed : uart.ring.WellFormed) {linkNum : Int}
    {link : Fin 3} (valid : linkOf linkNum = some link) (turns start : Nat)
    (tempChar : UInt8) {rings : Rings}
    (usable : 0 < (rings link).size → (rings link).WellFormed) :
    ∃ (bytes : List UInt8) (after : Uart) (moved : Rings),
      dataLoop hal linkNum turns tempChar (waited hal uart start) rings =
          some (after, moved) ∧
        bytes.length = turns ∧
        (∀ index < turns, ∀ byte, heard hal uart (start + index) = some byte →
          bytes[index]? = some byte) ∧
        (moved link).stored =
          (rings link).stored ++ bytes.take (rings link).room ∧
        ∀ other, other ≠ link → moved other = rings other := by
  induction turns generalizing start tempChar rings with
  | zero => exact ⟨[], _, rings, rfl, rfl, by simp, by simp, fun _ _ => rfl⟩
  | succ turns inductionHypothesis =>
      obtain ⟨done, returns, pch, after⟩ :=
        getchar_waited hal formed start tempChar
      obtain ⟨pushUsable, size, stored⟩ := push_stores usable done.pch
      have less : (ringBuffPushData (rings link)
          (fun _ => done.pch) 1).ring.room = (rings link).room - 1 := by
        unfold RingBuff.room at stored ⊢
        rw [stored, size, List.length_append, List.length_take,
          List.length_singleton]
        omega
      have pushed : Function.update rings link
          (ringBuffPushData (rings link) (fun _ => done.pch) 1).ring link =
            (ringBuffPushData (rings link) (fun _ => done.pch) 1).ring :=
        Function.update_self ..
      obtain ⟨bytes, last, moved, later, length, hears, movedStored, others⟩ :=
        inductionHypothesis (start + 1) done.pch
          (fun positive => pushed.symm ▸ pushUsable (pushed ▸ positive))
      refine ⟨done.pch :: bytes, last, moved, ?_, ?_, ?_, ?_,
        fun other ne => ?_⟩
      · rw [dataLoop]
        simp only [returns, Option.bind_eq_bind, Option.bind_some, valid, after]
        exact later
      · rw [List.length_cons, length]
      · intro index small byte heardByte
        cases index with
        | zero =>
            rw [Nat.add_zero] at heardByte
            rw [heardByte, Option.getD_some] at pch
            rw [pch]
            rfl
        | succ index =>
            rw [← Nat.add_assoc, Nat.add_right_comm] at heardByte
            exact hears index (Nat.lt_of_succ_lt_succ small) byte heardByte
      · rw [movedStored, pushed, stored, less, List.append_assoc]
        cases (rings link).room with
        | zero => rfl
        | succ room =>
            rw [List.take_succ_cons, List.take_succ_cons, List.take_nil,
              List.singleton_append, Nat.add_sub_cancel]
      · rw [others other ne, Function.update_of_ne ne]

/-- Bytes among which the data are heard, as many as are stored of them, are the
data. -/
theorem take_of_hears {bytes data : List UInt8} {start room : Nat}
    (heardBytes : ∀ index < bytes.length, ∀ byte,
      heard hal uart (start + index) = some byte → bytes[index]? = some byte)
    (hears : ∀ index < data.length,
      heard hal uart (start + index) = data[index]?)
    (as_many : data.length = min bytes.length room) :
    bytes.take room = data := by
  apply List.ext_getElem
  · rw [List.length_take, as_many, Nat.min_comm]
  · intro index taken small
    have byte := hears index small
    rw [List.getElem?_eq_getElem small] at byte
    have same := heardBytes index (by omega) _ byte
    rw [List.getElem_take]
    exact (List.getElem?_eq_some_iff.mp same).2

/-- The bytes that are heard are moved to the buffer of the link. -/
theorem dataLoop_moves (formed : uart.ring.WellFormed) {linkNum : Int}
    {link : Fin 3} (valid : linkOf linkNum = some link) {data : List UInt8}
    {start : Nat} (tempChar : UInt8) {rings : Rings}
    (hears : ∀ index < data.length,
      heard hal uart (start + index) = data[index]?)
    (usable : 0 < (rings link).size → (rings link).WellFormed)
    (fits : data.length ≤ (rings link).room) :
    ∃ after moved,
      dataLoop hal linkNum data.length tempChar (waited hal uart start)
          rings = some (after, moved) ∧
        (moved link).stored = (rings link).stored ++ data ∧
        ∀ other, other ≠ link → moved other = rings other := by
  obtain ⟨bytes, after, moved, loops, length, heardBytes, stored, others⟩ :=
    dataLoop_stores formed valid data.length start tempChar usable
  rw [← length] at heardBytes
  rw [take_of_hears heardBytes hears (by omega)] at stored
  exact ⟨after, moved, loops, stored, others⟩

/-! ## Frames -/

/-- The bytes of `temp_string` up to its terminating zero. -/
def stringOf (text : List UInt8) : List UInt8 := (CString.ofArray text).bytes

/-- A text of eight bytes at most announces no data unless it is the word that
headers begin with. -/
theorem sscanfReceive_short {text : List UInt8} (short : text.length ≤ 8)
    (other : text ≠ ascii "RECEIVE:") :
    sscanfReceive (stringOf text) = none := by
  unfold sscanfReceive
  rw [if_neg]
  intro named
  have whole : ascii "RECEIVE:" <+: text :=
    named.trans (List.takeWhile_prefix _)
  exact other (whole.eq_of_length_le short).symm

/-- What follows a plus sign is handled within the arrays: it has another word
at its beginning, or a newline among its first twenty bytes, and then a link
there is if it announces data. -/
def FrameSafe (hal : HalTimer) (uart : Uart) (start : Nat) : Prop :=
  textFrom hal uart start 8 = ascii "RECEIVE:" →
    ∃ place < 20, LineAt hal uart start place ∧
      ∀ linkNum recNum,
        sscanfReceive (stringOf (textFrom hal uart start (place + 1))) =
            some (linkNum, recNum) →
          0 < recNum → 0 ≤ linkNum ∧ linkNum < 3

theorem linkOf_isSome (linkNum : Int) :
    (linkOf linkNum).isSome ↔ 0 ≤ linkNum ∧ linkNum < 3 := by
  unfold linkOf
  split
  · rename_i inside
    exact iff_of_true rfl inside
  · rename_i outside
    exact iff_of_false (by simp) outside

/-- Another word at the beginning is handled. -/
theorem readFrame_other (hal : HalTimer) (formed : uart.ring.WellFormed)
    (start tempReadPoint : Nat) (rings : Rings)
    (other : textFrom hal uart start 8 ≠ ascii "RECEIVE:") :
    ∃ after, readFrame hal tempReadPoint (waited hal uart start) rings =
      some (after, rings) := by
  unfold readFrame
  by_cases early : ∃ place < 8, (heard hal uart (start + place)).getD 0 = 10
  · obtain ⟨place, small, line⟩ := exists_lineAt early
    have looped := headerLoop_line formed tempReadPoint line
      (fun late => absurd late (by omega)) (Nat.zero_le place)
      (by omega : place < 0 + 21)
    have scanned : sscanfReceive
        (stringOf (textFrom hal uart start (place + 1))) = none := by
      apply sscanfReceive_short
      · rw [length_textFrom]
        omega
      · intro named
        have whole : place + 1 = 8 := by
          have length := congrArg List.length named
          rw [length_textFrom] at length
          exact length
        rw [whole] at named
        exact other named
    have unfolded : headerLoop hal tempReadPoint 21 []
        (waited hal uart start) = _ := looped
    unfold stringOf at scanned
    simp only [unfolded, Option.bind_eq_bind, Option.bind_some,
      length_textFrom, scanned]
    rw [if_neg (by omega)]
    exact ⟨_, rfl⟩
  · have none : ∀ place < 8,
        (heard hal uart (start + place)).getD 0 ≠ 10 :=
      fun place small newline => early ⟨place, small, newline⟩
    have looped := headerLoop_other formed tempReadPoint other none
      (Nat.zero_le 8) (by omega : 8 < 0 + 21)
    have scanned := sscanfReceive_short (length_textFrom start 8).le other
    have unfolded : headerLoop hal tempReadPoint 21 []
        (waited hal uart start) = _ := looped
    unfold stringOf at scanned
    simp only [unfolded, Option.bind_eq_bind, Option.bind_some,
      length_textFrom, scanned]
    rw [if_neg (by omega)]
    exact ⟨_, rfl⟩

/-- A header that ends is scanned, and its data are moved. -/
theorem readFrame_line (formed : uart.ring.WellFormed) {start place : Nat}
    (tempReadPoint : Nat) (rings : Rings)
    (named : textFrom hal uart start 8 = ascii "RECEIVE:")
    (line : LineAt hal uart start place) (small : place < 20) :
    readFrame hal tempReadPoint (waited hal uart start) rings =
      match sscanfReceive
          (stringOf (textFrom hal uart start (place + 1))) with
      | some (linkNum, recNum) =>
          dataLoop hal linkNum recNum.toNat 43
            (waited hal uart (start + (place + 1))) rings
      | none => some (waited hal uart (start + (place + 1)), rings) := by
  have looped : headerLoop hal tempReadPoint 21 [] (waited hal uart start) =
      some (textFrom hal uart start (place + 1),
        waited hal uart (start + (place + 1))) :=
    headerLoop_line formed tempReadPoint line (fun _ => named)
      (Nat.zero_le place) (by omega : place < 0 + 21)
  unfold readFrame stringOf
  simp only [looped, Option.bind_eq_bind, Option.bind_some, length_textFrom]
  rw [if_neg (by omega)]

/-- A header that is too long leaves the array. -/
theorem readFrame_long (formed : uart.ring.WellFormed) {start : Nat}
    (tempReadPoint : Nat) (rings : Rings)
    (named : textFrom hal uart start 8 = ascii "RECEIVE:")
    (long : ¬ ∃ place < 20, LineAt hal uart start place) :
    readFrame hal tempReadPoint (waited hal uart start) rings = none := by
  unfold readFrame
  by_cases last : ∃ place < 21, (heard hal uart (start + place)).getD 0 = 10
  · obtain ⟨place, small, line⟩ := exists_lineAt last
    have same : place = 20 := by
      by_contra ne
      exact long ⟨place, by omega, line⟩
    subst same
    have looped : headerLoop hal tempReadPoint 21 []
        (waited hal uart start) =
          some (textFrom hal uart start 21, waited hal uart (start + 21)) :=
      headerLoop_line formed tempReadPoint line (fun _ => named)
        (Nat.zero_le 20) (by omega : 20 < 0 + 21)
    simp only [looped, Option.bind_eq_bind, Option.bind_some,
      length_textFrom]
    rw [if_pos (by omega)]
  · have none : ∀ place < 0 + 21,
        (heard hal uart (start + place)).getD 0 ≠ 10 :=
      fun place small newline => last ⟨place, by omega, newline⟩
    have looped : headerLoop hal tempReadPoint 21 []
        (waited hal uart start) = .none :=
      headerLoop_long formed tempReadPoint named none
    simp only [looped, Option.bind_eq_bind, Option.bind_none]

/-- What follows a plus sign is handled if and only if it stays within the
arrays. -/
theorem readFrame_isSome (formed : uart.ring.WellFormed) (start : Nat)
    (tempReadPoint : Nat) (rings : Rings) :
    (readFrame hal tempReadPoint (waited hal uart start) rings).isSome ↔
      FrameSafe hal uart start := by
  by_cases named : textFrom hal uart start 8 = ascii "RECEIVE:"
  · by_cases ends : ∃ place < 20, LineAt hal uart start place
    · obtain ⟨place, small, line⟩ := ends
      have first : ∀ other, LineAt hal uart start other → other = place := by
        intro other another
        rcases Nat.lt_trichotomy other place with before | same | behind
        · exact absurd another.1 (line.2 other before)
        · exact same
        · exact absurd line.1 (another.2 place behind)
      rw [readFrame_line formed tempReadPoint rings named line small]
      constructor
      · intro handled _
        refine ⟨place, small, line, fun linkNum recNum scanned positive => ?_⟩
        rw [scanned] at handled
        have valid := (dataLoop_isSome formed linkNum recNum.toNat _ 43
          rings).mp handled (by omega)
        exact (linkOf_isSome linkNum).mp valid
      · intro safe
        obtain ⟨other, -, another, links⟩ := safe named
        obtain rfl := first other another
        split
        · rename_i linkNum recNum scanned
          apply (dataLoop_isSome formed linkNum recNum.toNat _ 43 rings).mpr
          intro positive
          exact (linkOf_isSome linkNum).mpr
            (links linkNum recNum scanned (by omega))
        · rfl
    · rw [readFrame_long formed tempReadPoint rings named ends]
      refine iff_of_false (by simp) fun safe => ?_
      obtain ⟨place, small, line, -⟩ := safe named
      exact ends ⟨place, small, line⟩
  · obtain ⟨after, handled⟩ :=
      readFrame_other hal formed start tempReadPoint rings named
    rw [handled]
    exact iff_of_true rfl fun same => absurd same named

/-- The number of waits in front of the text behind a plus sign, if they hear
one: a carriage return, with or without a newline, comes before it. -/
def headerStart (hal : HalTimer) (uart : Uart) : Option Nat :=
  if (heard hal uart 0).getD 0 = 13 then
    if (heard hal uart 1).getD 0 = 10 then
      if (heard hal uart 2).getD 10 = 43 then some 3 else none
    else if (heard hal uart 1).getD 0 = 43 then some 2
    else none
  else none

/-- Whatever follows a plus sign is handled within the arrays. -/
def ReadSafe (hal : HalTimer) (uart : Uart) : Prop :=
  ∀ start, headerStart hal uart = some start → FrameSafe hal uart start

/-- A read is what follows the plus sign it hears, or nothing. -/
theorem halAtReadTcp_eq (hal : HalTimer) (formed : uart.ring.WellFormed)
    (rings : Rings) :
    ∃ tempReadPoint after,
      halAtReadTcp hal uart rings =
        match headerStart hal uart with
        | some start =>
            (readFrame hal tempReadPoint (waited hal uart start) rings).map
              fun done => (halAtRead, done)
        | none => some (halAtRead, after, rings) := by
  obtain ⟨last, last_returns, last_pch, last_after⟩ :=
    getchar_waited hal formed 0 0
  obtain ⟨temp, temp_returns, temp_pch, temp_after⟩ :=
    getchar_waited hal formed 1 0
  obtain ⟨next, next_returns, next_pch, next_after⟩ :=
    getchar_waited hal formed 2 10
  unfold halAtReadTcp headerStart
  have first : atClientGetchar hal uart 0 getReceiveTimeoutMs = some last :=
    last_returns
  simp only [first, Option.bind_eq_bind, Option.bind_some, last_pch, last_after]
  by_cases carriage : (heard hal uart 0).getD 0 = 13
  · rw [if_pos carriage, if_pos carriage]
    simp only [Nat.zero_add, temp_returns, Option.bind_some, temp_pch,
      temp_after]
    by_cases newline : (heard hal uart 1).getD 0 = 10
    · rw [if_pos newline, if_pos newline, newline]
      simp only [next_returns, Option.bind_some, next_pch, next_after]
      by_cases plus : (heard hal uart 2).getD 10 = 43
      · rw [if_pos plus, if_pos plus]
        exact ⟨_, uart, (Option.map_eq_bind ..).symm⟩
      · rw [if_neg plus, if_neg plus]
        exact ⟨0, _, rfl⟩
    · rw [if_neg newline, if_neg newline]
      by_cases plus : (heard hal uart 1).getD 0 = 43
      · rw [if_pos plus, if_pos plus]
        exact ⟨_, uart, (Option.map_eq_bind ..).symm⟩
      · rw [if_neg plus, if_neg plus]
        exact ⟨0, _, rfl⟩
  · rw [if_neg carriage, if_neg carriage]
    exact ⟨0, _, rfl⟩

theorem halAtReadTcp_isSome (hal : HalTimer) (formed : uart.ring.WellFormed)
    (rings : Rings) :
    (halAtReadTcp hal uart rings).isSome ↔ ReadSafe hal uart := by
  obtain ⟨tempReadPoint, after, equal⟩ := halAtReadTcp_eq hal formed rings
  rw [equal]
  unfold ReadSafe
  cases headerStart hal uart with
  | none => exact iff_of_true rfl nofun
  | some start =>
      dsimp only
      rw [Option.isSome_map, readFrame_isSome formed]
      simp only [Option.some.injEq, forall_eq']

end Waits

/-! ## Complete frames -/

/-- `"+RECEIVE: l, n:\r\n"` behind its plus sign. -/
def receiveHeader (link count : Nat) : List UInt8 :=
  ascii "RECEIVE: " ++ digits link ++ ascii ", " ++ digits count ++
    ascii ":\r\n"

/-- The frame in which a module hands on what it received on a link. -/
def receiveFrame (link : Fin 3) (data : List UInt8) : List UInt8 :=
  ascii "\r\n+" ++ (receiveHeader link data.length ++ data)

/-- The next waits hear these bytes. -/
def Hears (hal : HalTimer) (uart : Uart) (bytes : List UInt8) : Prop :=
  ∀ index < bytes.length, heard hal uart index = bytes[index]?

section Frames

variable {hal : HalTimer} {uart : Uart}

/-- Behind white space and digits `%d` has read their number. -/
theorem sscanfDecimal_digits {number : Nat} (small : number < 2 ^ 31)
    {rest : List UInt8} (ends : ∀ byte ∈ rest.head?, isDigit byte = false) :
    sscanfDecimal (32 :: (digits number ++ rest)) =
      some ((number : Int), rest) := by
  have range := DecimalDigits.digits_range number
  have all : ∀ byte ∈ digits number, isDigit byte = true := by
    intro byte mem
    have inside := range byte mem
    unfold isDigit
    simp only [Bool.and_eq_true, decide_eq_true_eq]
    exact inside
  have nonempty := DecimalDigits.digits_ne_nil number
  have signed : signOf ((32 :: (digits number ++ rest)).dropWhile isSpace) =
      (false, digits number ++ rest) := by
    obtain ⟨first, others, cons⟩ := List.exists_cons_of_ne_nil nonempty
    obtain ⟨space, minus, plus, -⟩ := Shadow.digit_plain
      (range first (by rw [cons]; exact List.mem_cons_self ..))
    rw [cons, List.dropWhile_cons, if_pos (by decide), List.cons_append,
      List.dropWhile_cons, if_neg (by simp [space])]
    unfold signOf
    split
    · rename_i same
      exact absurd (List.cons.inj same).1 minus
    · rename_i same
      exact absurd (List.cons.inj same).1 plus
    · rfl
  have taken : (digits number ++ rest).takeWhile isDigit = digits number := by
    rw [List.takeWhile_append_of_pos all]
    cases rest with
    | nil => rw [List.takeWhile_nil, List.append_nil]
    | cons byte rest =>
        rw [List.takeWhile_cons, if_neg, List.append_nil]
        rw [ends byte rfl]
        exact Bool.false_ne_true
  have dropped : (digits number ++ rest).dropWhile isDigit = rest := by
    rw [List.dropWhile_append_of_pos all]
    cases rest with
    | nil => rfl
    | cons byte rest =>
        rw [List.dropWhile_cons, if_neg]
        rw [ends byte rfl]
        exact Bool.false_ne_true
  unfold sscanfDecimal
  rw [signed]
  dsimp only
  rw [taken, dropped]
  split
  · rename_i none
    exact absurd none nonempty
  · rw [DecimalDigits.value_digits, if_neg Bool.false_ne_true]
    have capped : min (2 ^ 63 - 1) (number : Int) = number := by omega
    have stored : (Int32.ofInt (number : Int)).toInt = number := by
      have size : Int32.size = 2 ^ 32 := rfl
      rw [Int32.toInt_ofInt, size]
      exact Int.bmod_eq_of_le (by omega) (by omega)
    rw [capped, stored]

/-- The header of a frame is scanned as its link and its length. -/
theorem sscanfReceive_header {link count : Nat} (link_small : link < 2 ^ 31)
    (count_small : count < 2 ^ 31) :
    sscanfReceive (receiveHeader link count) =
      some ((link : Int), (count : Int)) := by
  have parts : receiveHeader link count =
      ascii "RECEIVE:" ++ 32 :: (digits link ++
        44 :: 32 :: (digits count ++ ascii ":\r\n")) := by
    unfold receiveHeader
    simp only [List.append_assoc]
    rfl
  unfold sscanfReceive
  rw [parts, if_pos (List.prefix_append _ _)]
  have behind : (ascii "RECEIVE:" ++ 32 :: (digits link ++
      44 :: 32 :: (digits count ++ ascii ":\r\n"))).drop 8 = 32 ::
        (digits link ++ 44 :: 32 :: (digits count ++ ascii ":\r\n")) := rfl
  have first : sscanfDecimal (32 :: (digits link ++
      44 :: 32 :: (digits count ++ ascii ":\r\n"))) =
        some ((link : Int), 44 :: 32 :: (digits count ++ ascii ":\r\n")) := by
    apply sscanfDecimal_digits link_small
    intro byte head
    obtain rfl := Option.some.inj head
    rfl
  have second : sscanfDecimal (32 :: (digits count ++ ascii ":\r\n")) =
      some ((count : Int), ascii ":\r\n") := by
    apply sscanfDecimal_digits count_small
    intro byte head
    obtain rfl := Option.some.inj head
    rfl
  rw [behind, first]
  simp only [second, Option.map_some]

/-- A header ends with its only newline and has no zero. -/
theorem receiveHeader_line (link count : Nat) :
    ∃ front, receiveHeader link count = front ++ [10] ∧
      (∀ byte ∈ front, byte ≠ 10) ∧
      ∀ byte ∈ receiveHeader link count, byte ≠ 0 := by
  refine ⟨ascii "RECEIVE: " ++ digits link ++ ascii ", " ++ digits count ++
    ascii ":\r", ?_, ?_, ?_⟩
  · unfold receiveHeader
    rw [List.append_assoc _ (ascii ":\r")]
    rfl
  · have number : ∀ number, ∀ byte ∈ digits number, byte ≠ 10 := by
      intro number byte mem same
      have range := (DecimalDigits.digits_range number byte mem).1
      rw [same] at range
      exact absurd range (by decide)
    have texts : (∀ byte ∈ ascii "RECEIVE: ", byte ≠ 10) ∧
        (∀ byte ∈ ascii ", ", byte ≠ 10) ∧
        ∀ byte ∈ ascii ":\r", byte ≠ 10 := by decide +kernel
    simp only [List.forall_mem_append]
    exact ⟨⟨⟨⟨texts.1, number link⟩, texts.2.1⟩, number count⟩, texts.2.2⟩
  · have number : ∀ number, ∀ byte ∈ digits number, byte ≠ 0 := by
      intro number byte mem same
      have range := (DecimalDigits.digits_range number byte mem).1
      rw [same] at range
      exact absurd range (by decide)
    have texts : (∀ byte ∈ ascii "RECEIVE: ", byte ≠ 0) ∧
        (∀ byte ∈ ascii ", ", byte ≠ 0) ∧
        ∀ byte ∈ ascii ":\r\n", byte ≠ 0 := by decide +kernel
    unfold receiveHeader
    simp only [List.forall_mem_append]
    exact ⟨⟨⟨⟨texts.1, number link⟩, texts.2.1⟩, number count⟩, texts.2.2⟩

/-- The text of a header that is heard. -/
theorem textFrom_header {start : Nat} {header rest : List UInt8}
    (hears : ∀ index < (header ++ rest).length,
      heard hal uart (start + index) = (header ++ rest)[index]?)
    {count : Nat} (le : count ≤ header.length) :
    textFrom hal uart start count = header.take count := by
  induction count with
  | zero => rfl
  | succ count inductionHypothesis =>
      have there : count < header.length := le
      have length : (header ++ rest).length = header.length + rest.length :=
        List.length_append
      have byte := hears count (by omega)
      rw [List.getElem?_append_left there, List.getElem?_eq_getElem there]
        at byte
      rw [textFrom_succ, inductionHypothesis (by omega), byte,
        Option.getD_some, List.take_append_getElem there]

/-- A frame that is heard is handled as it is meant, if its header fits into the
array. -/
theorem readFrame_receives (formed : uart.ring.WellFormed) {link : Fin 3}
    {data : List UInt8} {start tempReadPoint : Nat} {rings : Rings}
    (hears : ∀ index < (receiveHeader link data.length ++ data).length,
      heard hal uart (start + index) =
        (receiveHeader link data.length ++ data)[index]?)
    (safe : FrameSafe hal uart start)
    (usable : 0 < (rings link).size → (rings link).WellFormed)
    (fits : data.length ≤ (rings link).room) :
    ∃ after moved,
      readFrame hal tempReadPoint (waited hal uart start) rings =
          some (after, moved) ∧
        (moved link).stored = (rings link).stored ++ data ∧
        ∀ other, other ≠ link → moved other = rings other := by
  obtain ⟨front, ends, lineless, nonzero⟩ :=
    receiveHeader_line link data.length
  have length : (receiveHeader link data.length).length =
      front.length + 1 := by
    rw [ends, List.length_append, List.length_singleton]
  have sizes : (receiveHeader link data.length).length =
      9 + (digits link).length + 2 + (digits data.length).length + 3 := by
    unfold receiveHeader
    simp only [List.length_append]
    rfl
  have named : textFrom hal uart start 8 = ascii "RECEIVE:" := by
    rw [textFrom_header hears (by omega)]
    unfold receiveHeader
    simp only [List.append_assoc]
    rfl
  obtain ⟨place, small, line, -⟩ := safe named
  have byte : ∀ index ≤ front.length,
      (heard hal uart (start + index)).getD 0 =
        (front ++ [10])[index]?.getD 0 := by
    intro index le
    rw [hears index (by rw [List.length_append]; omega),
      List.getElem?_append_left (by omega), ends]
  have same : place = front.length := by
    rcases Nat.lt_trichotomy place front.length with before | same | behind
    · have newline := byte place (by omega)
      rw [line.1, List.getElem?_append_left before,
        List.getElem?_eq_getElem before, Option.getD_some] at newline
      exact absurd newline.symm (lineless _ (List.getElem_mem before))
    · exact same
    · have newline := byte front.length (Nat.le_refl _)
      rw [List.getElem?_append_right (Nat.le_refl _), Nat.sub_self] at newline
      exact absurd newline (line.2 _ behind)
  subst same
  have text : textFrom hal uart start (front.length + 1) =
      receiveHeader link data.length := by
    rw [textFrom_header hears (by omega), ← length, List.take_length]
  have string : stringOf (receiveHeader link data.length) =
      receiveHeader link data.length := by
    apply List.takeWhile_eq_self_iff.mpr
    intro byte mem
    exact decide_eq_true (nonzero byte mem)
  have link_digits := List.length_pos_of_ne_nil
    (DecimalDigits.digits_ne_nil link)
  have count_small : data.length < 10 ^ 5 :=
    DecimalDigits.lt_of_length_digits_le (by decide) (by omega)
  rw [readFrame_line formed tempReadPoint rings named line small, text, string,
    sscanfReceive_header (by omega) (by omega)]
  have valid : linkOf (link : Nat) = some link := by
    unfold linkOf
    rw [dif_pos (by omega)]
    rfl
  have behind : ∀ index < data.length,
      heard hal uart (start + (front.length + 1) + index) = data[index]? := by
    intro index inside
    have next := hears (front.length + 1 + index)
      (by rw [List.length_append]; omega)
    rw [List.getElem?_append_right (by omega), length,
      Nat.add_sub_cancel_left] at next
    rw [← next, Nat.add_assoc]
  exact dataLoop_moves formed valid 43 behind usable fits

/-- A frame is heard behind the first three waits. -/
theorem Hears.header {link : Fin 3} {data : List UInt8}
    (hears : Hears hal uart (receiveFrame link data)) :
    headerStart hal uart = some 3 ∧
      ∀ index < (receiveHeader link data.length ++ data).length,
        heard hal uart (3 + index) =
          (receiveHeader link data.length ++ data)[index]? := by
  have cons : receiveFrame link data =
      13 :: 10 :: 43 :: (receiveHeader link data.length ++ data) := rfl
  unfold Hears at hears
  rw [cons] at hears
  have first : heard hal uart 0 = some 13 := hears 0 (by simp)
  have second : heard hal uart 1 = some 10 := hears 1 (by simp)
  have third : heard hal uart 2 = some 43 := hears 2 (by simp)
  constructor
  · unfold headerStart
    rw [first, second, third]
    rfl
  · intro index small
    have byte := hears (index + 3) (by
      simp only [List.length_cons]
      omega)
    rw [Nat.add_comm 3]
    exact byte

/-- A read stays within its arrays, and moves the data of each frame it hears
to the buffer of their link, if and only if what follows a plus sign has another
word at its beginning, or a newline among its first twenty bytes and a link
there is. -/
theorem halAtReadTcp_receives_iff (hal : HalTimer)
    (formed : uart.ring.WellFormed) (rings : Rings)
    (usable : ∀ link, 0 < (rings link).size → (rings link).WellFormed) :
    ((halAtReadTcp hal uart rings).isSome ∧
      ∀ link data, Hears hal uart (receiveFrame link data) →
        data.length ≤ (rings link).room →
          ∃ ret after moved,
            halAtReadTcp hal uart rings = some (ret, after, moved) ∧
              (moved link).stored = (rings link).stored ++ data ∧
              ∀ other, other ≠ link → moved other = rings other) ↔
      ReadSafe hal uart := by
  rw [halAtReadTcp_isSome hal formed]
  refine ⟨fun both => both.1, fun safe => ⟨safe, ?_⟩⟩
  intro link data hears fits
  obtain ⟨starts, behind⟩ := hears.header
  obtain ⟨tempReadPoint, elsewhere, equal⟩ := halAtReadTcp_eq hal formed rings
  obtain ⟨after, moved, returns, stored, others⟩ := readFrame_receives
    formed behind (safe 3 starts) (usable link) fits
  refine ⟨halAtRead, after, moved, ?_, stored, others⟩
  rw [equal, starts]
  dsimp only
  rw [returns]
  rfl

/-! ## Frames in the ring buffer -/

/-- A wait takes the first byte that is there. -/
theorem wait_stored (hal : HalTimer) (formed : uart.ring.WellFormed)
    {byte : UInt8} {rest : List UInt8}
    (stored : uart.ring.stored = byte :: rest) :
    (wait hal uart).1 = some byte ∧
      ∃ arrived, (wait hal uart).2.ring.stored = rest ++ arrived := by
  have started_formed := Uart.elapse_formed formed 0
  obtain ⟨arrived, started, -⟩ := Uart.elapse_conserves formed 0
  rw [stored, List.nil_append] at started
  have pop := popOne started_formed
  obtain ⟨later, tested, -⟩ : ({ uart.elapse 0 with
      ring := (ringBuffPopData (uart.elapse 0).ring 1).ring } :
        Uart).Conserves [] _ := Uart.elapse_conserves pop.formed 0
  have looped : getcharLoop hal ((uart.elapse 0).now + getReceiveTimeoutMs) 0
      (getReceiveTimeoutMs / 10 + 1) (uart.elapse 0) =
        some ⟨.successRet, byte, [byte],
          { uart.elapse 0 with
            ring := (ringBuffPopData (uart.elapse 0).ring 1).ring }⟩ := by
    rw [getcharLoop]
    dsimp only
    rw [pop.ret, pop.bytes, started]
    rfl
  have kept : (ringBuffPopData (uart.elapse 0).ring 1).ring.stored =
      rest ++ arrived := by
    rw [pop.stored, started]
    rfl
  dsimp only at tested
  rw [kept, List.nil_append, List.append_assoc] at tested
  unfold wait atClientGetchar
  simp only [looped, Option.bind_eq_bind, Option.bind_some]
  by_cases late : hal.expired ((uart.elapse 0).now + getReceiveTimeoutMs)
      (({ uart.elapse 0 with
        ring := (ringBuffPopData (uart.elapse 0).ring 1).ring } :
          Uart).elapse 0).now = true
  · rw [if_pos late]
    exact ⟨rfl, _, tested⟩
  · rw [if_neg late]
    exact ⟨rfl, _, tested⟩

/-- Bytes that are in the ring buffer are heard, however long each step takes
and whatever arrives meanwhile. -/
theorem hears_of_stored (hal : HalTimer) (formed : uart.ring.WellFormed)
    {bytes rest : List UInt8} (stored : uart.ring.stored = bytes ++ rest) :
    Hears hal uart bytes := by
  have behind : ∀ count ≤ bytes.length, ∃ arrived,
      (waited hal uart count).ring.stored = bytes.drop count ++ arrived := by
    intro count
    induction count with
    | zero => exact fun _ => ⟨rest, stored⟩
    | succ count inductionHypothesis =>
        intro le
        obtain ⟨arrived, before⟩ := inductionHypothesis (by omega)
        rw [List.drop_eq_getElem_cons (by omega), List.cons_append] at before
        obtain ⟨-, later, next⟩ :=
          wait_stored hal (waited_formed formed count) before
        exact ⟨arrived ++ later, by
          rw [← List.append_assoc]
          exact next⟩
  intro index small
  obtain ⟨arrived, before⟩ := behind index (by omega)
  rw [List.drop_eq_getElem_cons small, List.cons_append] at before
  rw [List.getElem?_eq_getElem small]
  exact (wait_stored hal (waited_formed formed index) before).1

/-- A serial line that has delivered a text. -/
def delivered (text : String) : Uart :=
  ⟨0, [], arrive (ringBuffInit (fun _ => 0) 32) (ascii text)⟩

theorem delivered_wellFormed (text : String) :
    (delivered text).ring.WellFormed :=
  (arrive_arrives (init_stored (by decide)).1 (ascii text)).formed

/-- Three empty buffers of eight bytes. -/
def emptyRings : Rings := fun _ => ringBuffInit (fun _ => 0) 8

theorem emptyRings_usable (link : Fin 3) :
    0 < (emptyRings link).size → (emptyRings link).WellFormed :=
  fun positive => (init_stored positive).1

theorem halAtReadTcp_receives_iff_one :
    ((halAtReadTcp .linux (delivered "\r\n+RECEIVE: 1, 1:\r\nx")
        emptyRings).isSome ∧
      ∀ link data,
        Hears .linux (delivered "\r\n+RECEIVE: 1, 1:\r\nx")
            (receiveFrame link data) →
          data.length ≤ (emptyRings link).room →
            ∃ ret after moved,
              halAtReadTcp .linux (delivered "\r\n+RECEIVE: 1, 1:\r\nx")
                  emptyRings = some (ret, after, moved) ∧
                (moved link).stored = (emptyRings link).stored ++ data ∧
                ∀ other, other ≠ link → moved other = emptyRings other) ↔
      ReadSafe .linux (delivered "\r\n+RECEIVE: 1, 1:\r\nx") :=
  halAtReadTcp_receives_iff .linux (delivered_wellFormed _) emptyRings
    emptyRings_usable

/-- A header with the link 7 makes the read push into an entry behind the
array. -/
theorem otherLink_overruns :
    ¬ ∀ (hal : HalTimer) (uart : Uart) (rings : Rings),
      uart.ring.WellFormed →
        (∀ link, 0 < (rings link).size → (rings link).WellFormed) →
          (halAtReadTcp hal uart rings).isSome := by
  intro handles
  have overrun := handles .linux (delivered "\r\n+RECEIVE: 7, 1:\r\nx")
    emptyRings (delivered_wellFormed _) emptyRings_usable
  have outside : (halAtReadTcp .linux
      (delivered "\r\n+RECEIVE: 7, 1:\r\nx") emptyRings).isSome = false := by
    decide +kernel
  rw [outside] at overrun
  cases overrun

end Frames

end At
end UIoT
