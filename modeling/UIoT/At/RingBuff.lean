import UIoT.Defs
import UIoT.Library.BoundedFifo

/-!
# The ring buffer

`at_ringbuff.c`.  Both points are moved on in front of the access, so that what
is stored begins behind the read point; an array of `size` bytes holds at most
`size - 1`.  Seen from outside the buffer is a bounded queue.
-/

namespace UIoT
namespace At

open BoundedFifo (Call History)

/-! ## The functions -/

/-- `RINGBUFF_OK` -/
def ringbuffOk : Int := 0

/-- `RINGBUFF_FULL` -/
def ringbuffFull : Int := -4

/-- `RINGBUFF_TOO_SHORT` -/
def ringbuffTooShort : Int := -5

/-- `sRingbuff` -/
structure RingBuff where
  size : Nat
  readpoint : Nat
  writepoint : Nat
  buffer : Memory
  full : Bool

/-- `ring_buff_init`, with the first byte behind the array on. -/
def ringBuffInit (buff : Memory) (size : Nat) : RingBuff where
  buffer := buff.write 0 (List.replicate size 0)
  size
  readpoint := 0
  writepoint := 0
  full := false

/-- `ring_buff_flush` -/
def ringBuffFlush (ring : RingBuff) : RingBuff :=
  { ring with
    readpoint := 0
    writepoint := 0
    buffer := ring.buffer.write 0 (List.replicate ring.size 0)
    full := false }

/-- What a push does: what it returns, and the bytes it has stored. -/
structure Pushed where
  ring : RingBuff
  accepted : List UInt8
  ret : Int

/-- The loop of `ring_buff_push_data` over the bytes that are left. -/
def pushLoop (ring : RingBuff) (accepted : List UInt8) :
    List UInt8 → Pushed
  | [] => ⟨ring, accepted, ringbuffOk⟩
  | byte :: rest =>
      if (ring.writepoint + 1) % ring.size = ring.readpoint then
        ⟨{ ring with full := true }, accepted, ringbuffFull⟩
      else
        let writepoint :=
          if ring.writepoint < ring.size - 1 then ring.writepoint + 1 else 0
        pushLoop
          { ring with
            writepoint
            buffer := Function.update ring.buffer writepoint byte }
          (accepted ++ [byte]) rest

/-- `len > ring_buff->size`: the length is taken as an unsigned number. -/
def tooShort (ring : RingBuff) (len : Int) : Prop :=
  ring.size < (len % 2 ^ 32).toNat

instance (ring : RingBuff) (len : Int) : Decidable (tooShort ring len) :=
  inferInstanceAs (Decidable (_ < _))

/-- `ring_buff_push_data` -/
def ringBuffPushData (ring : RingBuff) (pData : Memory) (len : Int) : Pushed :=
  if tooShort ring len then ⟨ring, [], ringbuffTooShort⟩
  else pushLoop ring [] (pData.slice 0 len.toNat)

/-- What a pop does: what it returns, and the bytes it has stored from `pData`
on. -/
structure Popped where
  ring : RingBuff
  bytes : List UInt8
  ret : Int

/-- The loop of `ring_buff_pop_data`. -/
def popLoop (ring : RingBuff) (bytes : List UInt8) : (turns : Nat) → Popped
  | 0 => ⟨ring, bytes, bytes.length⟩
  | turns + 1 =>
      if ring.writepoint = ring.readpoint then ⟨ring, bytes, bytes.length⟩
      else
        let readpoint :=
          if ring.readpoint = ring.size - 1 then 0 else ring.readpoint + 1
        popLoop { ring with readpoint } (bytes ++ [ring.buffer readpoint]) turns

/-- `ring_buff_pop_data` -/
def ringBuffPopData (ring : RingBuff) (len : Int) : Popped :=
  if tooShort ring len then ⟨ring, [], ringbuffTooShort⟩
  else popLoop ring [] len.toNat

/-! ## What is stored -/

namespace RingBuff

/-- The bytes that are stored, in the order of their arrival. -/
def stored (ring : RingBuff) : List UInt8 :=
  BoundedFifo.items ring.buffer ring.size ring.readpoint ring.writepoint

/-- Both points are inside the array. -/
structure WellFormed (ring : RingBuff) : Prop where
  read_lt : ring.readpoint < ring.size
  write_lt : ring.writepoint < ring.size

/-- The room that is left. -/
def room (ring : RingBuff) : Nat := ring.size - 1 - ring.stored.length

variable {ring : RingBuff}

theorem stored_length (ring : RingBuff) :
    ring.stored.length =
      BoundedFifo.distance ring.size ring.readpoint ring.writepoint :=
  BoundedFifo.length_items ..

/-- One byte of the array stays free. -/
theorem WellFormed.stored_lt (formed : ring.WellFormed) :
    ring.stored.length < ring.size := by
  have read_lt := formed.read_lt
  rw [stored_length]
  exact BoundedFifo.distance_lt (by omega)

/-- A buffer whose points are the same is empty. -/
theorem WellFormed.stored_eq_nil (formed : ring.WellFormed) :
    ring.stored = [] ↔ ring.writepoint = ring.readpoint := by
  rw [← List.length_eq_zero_iff, stored_length]
  exact BoundedFifo.distance_eq_zero formed.read_lt formed.write_lt

/-- The test for a full buffer. -/
theorem WellFormed.full_iff (formed : ring.WellFormed) :
    (ring.writepoint + 1) % ring.size = ring.readpoint ↔ ring.room = 0 := by
  have below := formed.stored_lt
  have full := BoundedFifo.next_eq_read formed.read_lt formed.write_lt
  unfold room
  rw [stored_length] at below ⊢
  unfold BoundedFifo.next at full
  rw [full]
  omega

/-- A point that is moved on. -/
theorem next_eq {size point : Nat} (inside : point < size) :
    BoundedFifo.next size point =
      if point = size - 1 then 0 else point + 1 := by
  unfold BoundedFifo.next
  split
  · rw [show point + 1 = size from by omega, Nat.mod_self]
  · exact Nat.mod_eq_of_lt (by omega)

theorem next_eq_of_lt {size point : Nat} (inside : point < size) :
    BoundedFifo.next size point =
      if point < size - 1 then point + 1 else 0 := by
  rw [next_eq inside]
  split <;> split <;> omega

end RingBuff

/-! ## One turn of the loops -/

section Turns

variable {ring : RingBuff}

/-- The buffer with one more byte. -/
def pushed (ring : RingBuff) (byte : UInt8) : RingBuff :=
  { ring with
    writepoint := BoundedFifo.next ring.size ring.writepoint
    buffer := Function.update ring.buffer
      (BoundedFifo.next ring.size ring.writepoint) byte }

/-- The buffer without its first byte. -/
def popped (ring : RingBuff) : RingBuff :=
  { ring with readpoint := BoundedFifo.next ring.size ring.readpoint }

theorem pushed_wellFormed (formed : ring.WellFormed) (byte : UInt8) :
    (pushed ring byte).WellFormed :=
  ⟨formed.read_lt, Nat.mod_lt _ (Nat.zero_lt_of_lt formed.read_lt)⟩

theorem popped_wellFormed (formed : ring.WellFormed) :
    (popped ring).WellFormed :=
  ⟨Nat.mod_lt _ (Nat.zero_lt_of_lt formed.read_lt), formed.write_lt⟩

/-- A byte that is pushed is stored behind the others. -/
theorem pushed_stored (formed : ring.WellFormed) (room : ring.room ≠ 0)
    (byte : UInt8) : (pushed ring byte).stored = ring.stored ++ [byte] :=
  BoundedFifo.items_write formed.read_lt formed.write_lt
    (mt formed.full_iff.mp room) byte

/-- What is popped is the first byte. -/
theorem popped_stored (formed : ring.WellFormed)
    (nonempty : ring.writepoint ≠ ring.readpoint) :
    ring.stored =
      ring.buffer (BoundedFifo.next ring.size ring.readpoint) ::
        (popped ring).stored :=
  BoundedFifo.items_read formed.read_lt formed.write_lt nonempty

theorem pushed_room (formed : ring.WellFormed) (room : ring.room ≠ 0)
    (byte : UInt8) : (pushed ring byte).room = ring.room - 1 := by
  unfold RingBuff.room
  rw [pushed_stored formed room, List.length_append, List.length_singleton]
  have same : (pushed ring byte).size = ring.size := rfl
  rw [same]
  omega

theorem pushLoop_cons (formed : ring.WellFormed) (accepted : List UInt8)
    (byte : UInt8) (rest : List UInt8) :
    pushLoop ring accepted (byte :: rest) =
      if ring.room = 0 then
        ⟨{ ring with full := true }, accepted, ringbuffFull⟩
      else pushLoop (pushed ring byte) (accepted ++ [byte]) rest := by
  rw [pushLoop]
  by_cases none : ring.room = 0
  · rw [if_pos none, if_pos (formed.full_iff.mpr none)]
  · rw [if_neg none, if_neg (mt formed.full_iff.mp none)]
    dsimp only
    rw [← RingBuff.next_eq_of_lt formed.write_lt]
    rfl

theorem popLoop_succ (formed : ring.WellFormed) (bytes : List UInt8)
    (turns : Nat) :
    popLoop ring bytes (turns + 1) =
      if ring.writepoint = ring.readpoint then ⟨ring, bytes, bytes.length⟩
      else
        popLoop (popped ring)
          (bytes ++
            [ring.buffer (BoundedFifo.next ring.size ring.readpoint)])
          turns := by
  rw [popLoop]
  dsimp only
  rw [← RingBuff.next_eq formed.read_lt]
  rfl

end Turns

/-! ## The calls -/

section Calls

variable {ring : RingBuff}

/-- What the loop of a push does: it stores the longest prefix that fits. -/
structure PushLoops (ring : RingBuff) (accepted data : List UInt8)
    (done : Pushed) : Prop where
  formed : done.ring.WellFormed
  size : done.ring.size = ring.size
  stored : done.ring.stored = ring.stored ++ data.take ring.room
  accepted : done.accepted = accepted ++ data.take ring.room
  ret : done.ret =
    if data.length ≤ ring.room then ringbuffOk else ringbuffFull

theorem pushLoop_loops (formed : ring.WellFormed)
    (accepted data : List UInt8) :
    PushLoops ring accepted data (pushLoop ring accepted data) := by
  induction data generalizing ring accepted with
  | nil =>
      exact ⟨formed, rfl, by simp [pushLoop], by simp [pushLoop],
        by simp [pushLoop]⟩
  | cons byte rest inductionHypothesis =>
      rw [pushLoop_cons formed]
      by_cases none : ring.room = 0
      · rw [if_pos none]
        constructor
        · exact ⟨formed.read_lt, formed.write_lt⟩
        · rfl
        · rw [none, List.take_zero, List.append_nil]
          rfl
        · rw [none, List.take_zero, List.append_nil]
        · rw [none, if_neg (by simp)]
      · rw [if_neg none]
        obtain ⟨room, counted⟩ := Nat.exists_eq_succ_of_ne_zero none
        have loops := inductionHypothesis (pushed_wellFormed formed byte)
          (accepted ++ [byte])
        have fewer : (pushed ring byte).room = room := by
          rw [pushed_room formed none, counted]
          rfl
        have stored := loops.stored
        have taken := loops.accepted
        have ret := loops.ret
        rw [fewer] at stored taken ret
        rw [pushed_stored formed none] at stored
        refine ⟨loops.formed, loops.size, ?_, ?_, ?_⟩
        · rw [stored, counted, List.take_succ_cons, List.append_assoc]
          rfl
        · rw [taken, counted, List.take_succ_cons, List.append_assoc]
          rfl
        · rw [ret, counted, List.length_cons]
          simp only [Nat.succ_eq_add_one, Nat.add_le_add_iff_right]

/-- What the loop of a pop does: it takes the first bytes out. -/
structure PopLoops (ring : RingBuff) (bytes : List UInt8) (turns : Nat)
    (done : Popped) : Prop where
  formed : done.ring.WellFormed
  size : done.ring.size = ring.size
  stored : done.ring.stored = ring.stored.drop turns
  bytes : done.bytes = bytes ++ ring.stored.take turns
  ret : done.ret = done.bytes.length

theorem popLoop_loops (formed : ring.WellFormed) (bytes : List UInt8)
    (turns : Nat) : PopLoops ring bytes turns (popLoop ring bytes turns) := by
  induction turns generalizing ring bytes with
  | zero => exact ⟨formed, rfl, rfl, by simp [popLoop], rfl⟩
  | succ turns inductionHypothesis =>
      rw [popLoop_succ formed]
      by_cases empty : ring.writepoint = ring.readpoint
      · rw [if_pos empty]
        have none := formed.stored_eq_nil.mpr empty
        exact ⟨formed, rfl, by rw [none]; rfl, by rw [none]; simp, rfl⟩
      · rw [if_neg empty]
        have first := popped_stored formed empty
        have loops := inductionHypothesis (popped_wellFormed formed)
          (bytes ++ [ring.buffer (BoundedFifo.next ring.size ring.readpoint)])
        refine ⟨loops.formed, loops.size, ?_, ?_, loops.ret⟩
        · rw [loops.stored, first]
          rfl
        · rw [loops.bytes, first, List.take_succ_cons, List.append_assoc]
          rfl

/-- A length that is no larger than the size is not refused. -/
theorem not_tooShort {len : Int} (nonneg : 0 ≤ len) (fits : len ≤ ring.size) :
    ¬ tooShort ring len := by
  unfold tooShort
  omega

/-- A length above the size is refused. -/
theorem tooShort_of_lt {len : Int32} (long : (ring.size : Int) < len.toInt) :
    tooShort ring len.toInt := by
  have below := len.toInt_lt
  unfold tooShort
  omega

end Calls

/-! ## Runs -/

/-- A call of one of the functions. -/
inductive RingCall
  | push (pData : Memory) (len : Int32)
  | pop (len : Int32)
  | flush

/-- A buffer in use, with the bytes that were accepted and popped since the last
flush. -/
structure Session where
  ring : RingBuff
  accepted : List UInt8
  popped : List UInt8

/-- A buffer after `ring_buff_init`. -/
def Session.start (buff : Memory) (size : Nat) : Session :=
  ⟨ringBuffInit buff size, [], []⟩

/-- The effect of a call. -/
def Session.step (session : Session) : RingCall → Session
  | .push pData len =>
      let done := ringBuffPushData session.ring pData len.toInt
      { session with
        ring := done.ring
        accepted := session.accepted ++ done.accepted }
  | .pop len =>
      let done := ringBuffPopData session.ring len.toInt
      { session with
        ring := done.ring
        popped := session.popped ++ done.bytes }
  | .flush => ⟨ringBuffFlush session.ring, [], []⟩

/-- The buffer after some calls. -/
def Session.run (session : Session) (calls : List RingCall) : Session :=
  calls.foldl Session.step session

/-- The call of the queue that a call of the buffer stands for; one with a
length that is no number of bytes, or refused, is none. -/
def RingCall.meant (size : Nat) : RingCall → Call UInt8
  | .push pData len =>
      .push (if len.toInt ≤ size then pData.slice 0 len.toInt.toNat else [])
  | .pop len => .pop (if len.toInt ≤ size then len.toInt.toNat else 0)
  | .flush => .flush

/-- The queue that a buffer stands for. -/
def Session.history (session : Session) : History UInt8 :=
  ⟨session.accepted, session.popped, session.ring.stored⟩

/-! ## Refinement -/

section Refinement

variable {ring : RingBuff}

/-- A push of no more bytes than the size. -/
theorem push_loops (formed : ring.WellFormed) (pData : Memory) {len : Int32}
    (nonneg : 0 ≤ len.toInt) (fits : len.toInt ≤ ring.size) :
    PushLoops ring [] (pData.slice 0 len.toInt.toNat)
      (ringBuffPushData ring pData len.toInt) := by
  unfold ringBuffPushData
  rw [if_neg (not_tooShort nonneg fits)]
  exact pushLoop_loops formed [] _

/-- A push of any other length changes nothing. -/
theorem push_nothing (ring : RingBuff) (pData : Memory) {len : Int32}
    (other : (ring.size : Int) < len.toInt ∨ len.toInt < 0) :
    (ringBuffPushData ring pData len.toInt).ring = ring ∧
      (ringBuffPushData ring pData len.toInt).accepted = [] := by
  unfold ringBuffPushData
  by_cases refused : tooShort ring len.toInt
  · rw [if_pos refused]
    exact ⟨rfl, rfl⟩
  · have negative : len.toInt < 0 :=
      other.resolve_left (mt tooShort_of_lt refused)
    rw [if_neg refused, Int.toNat_of_nonpos (by omega), Memory.slice_zero]
    exact ⟨rfl, rfl⟩

/-- A pop of no more bytes than the size. -/
theorem pop_loops (formed : ring.WellFormed) {len : Int32}
    (nonneg : 0 ≤ len.toInt) (fits : len.toInt ≤ ring.size) :
    PopLoops ring [] len.toInt.toNat (ringBuffPopData ring len.toInt) := by
  unfold ringBuffPopData
  rw [if_neg (not_tooShort nonneg fits)]
  exact popLoop_loops formed [] _

/-- A pop of any other length changes nothing. -/
theorem pop_nothing (ring : RingBuff) {len : Int32}
    (other : (ring.size : Int) < len.toInt ∨ len.toInt < 0) :
    (ringBuffPopData ring len.toInt).ring = ring ∧
      (ringBuffPopData ring len.toInt).bytes = [] := by
  unfold ringBuffPopData
  by_cases refused : tooShort ring len.toInt
  · rw [if_pos refused]
    exact ⟨rfl, rfl⟩
  · have negative : len.toInt < 0 :=
      other.resolve_left (mt tooShort_of_lt refused)
    rw [if_neg refused, Int.toNat_of_nonpos (by omega)]
    exact ⟨rfl, rfl⟩

/-- A flushed buffer is empty. -/
theorem flush_stored {ring : RingBuff} (positive : 0 < ring.size) :
    (ringBuffFlush ring).WellFormed ∧ (ringBuffFlush ring).stored = [] := by
  have formed : (ringBuffFlush ring).WellFormed := ⟨positive, positive⟩
  exact ⟨formed, formed.stored_eq_nil.mpr rfl⟩

theorem init_stored {buff : Memory} {size : Nat} (positive : 0 < size) :
    (ringBuffInit buff size).WellFormed ∧
      (ringBuffInit buff size).stored = [] := by
  have formed : (ringBuffInit buff size).WellFormed := ⟨positive, positive⟩
  exact ⟨formed, formed.stored_eq_nil.mpr rfl⟩

/-- The points of a buffer in use are inside its array, whose size is kept. -/
structure Session.Sound (size : Nat) (session : Session) : Prop where
  formed : session.ring.WellFormed
  size : session.ring.size = size

/-- A call does with the buffer what the call it stands for does with the
queue. -/
theorem Session.Sound.step {size : Nat} {session : Session}
    (sound : session.Sound size) (call : RingCall) :
    (session.step call).Sound size ∧
      (session.step call).history =
        session.history.step (size - 1) (call.meant size) := by
  obtain ⟨formed, rfl⟩ := sound
  cases call with
  | push pData len =>
      simp only [Session.step, RingCall.meant, Session.history, History.step,
        BoundedFifo.accepts]
      by_cases regular : 0 ≤ len.toInt ∧ len.toInt ≤ session.ring.size
      · have loops := push_loops formed pData regular.1 regular.2
        rw [if_pos regular.2, loops.stored, loops.accepted]
        exact ⟨⟨loops.formed, loops.size⟩, rfl⟩
      · have other : (session.ring.size : Int) < len.toInt ∨
            len.toInt < 0 := by omega
        obtain ⟨same, none⟩ := push_nothing session.ring pData other
        have nothing : (if len.toInt ≤ session.ring.size then
            pData.slice 0 len.toInt.toNat else []) = [] := by
          split
          · rw [Int.toNat_of_nonpos (by omega), Memory.slice_zero]
          · rfl
        rw [same, none, nothing, List.take_nil, List.append_nil,
          List.append_nil]
        exact ⟨⟨formed, rfl⟩, rfl⟩
  | pop len =>
      simp only [Session.step, RingCall.meant, Session.history, History.step]
      by_cases regular : 0 ≤ len.toInt ∧ len.toInt ≤ session.ring.size
      · have loops := pop_loops formed regular.1 regular.2
        rw [if_pos regular.2, loops.stored, loops.bytes]
        exact ⟨⟨loops.formed, loops.size⟩, rfl⟩
      · have other : (session.ring.size : Int) < len.toInt ∨
            len.toInt < 0 := by omega
        obtain ⟨same, none⟩ := pop_nothing session.ring other
        have nothing : (if len.toInt ≤ session.ring.size then
            len.toInt.toNat else 0) = 0 := by
          split
          · exact Int.toNat_of_nonpos (by omega)
          · rfl
        rw [same, none, nothing, List.take_zero, List.append_nil]
        exact ⟨⟨formed, rfl⟩, rfl⟩
  | flush =>
      obtain ⟨empty, nothing⟩ :=
        flush_stored (Nat.zero_lt_of_lt formed.read_lt)
      refine ⟨⟨empty, rfl⟩, ?_⟩
      simp only [Session.step, Session.history, RingCall.meant, History.step,
        nothing]
      rfl

/-- A run of calls does with the buffer what it does with the queue. -/
theorem Session.Sound.run {size : Nat} {session : Session}
    (sound : session.Sound size) (calls : List RingCall) :
    (session.run calls).Sound size ∧
      (session.run calls).history =
        calls.foldl
          (fun history call => history.step (size - 1) (call.meant size))
          session.history := by
  induction calls generalizing session with
  | nil => exact ⟨sound, rfl⟩
  | cons call calls inductionHypothesis =>
      obtain ⟨next, simulates⟩ := sound.step call
      obtain ⟨last, histories⟩ := inductionHypothesis next
      refine ⟨last, ?_⟩
      rw [simulates] at histories
      exact histories

theorem Session.start_sound (buff : Memory) {size : Nat} (positive : 0 < size) :
    (Session.start buff size).Sound size ∧
      (Session.start buff size).history = .empty := by
  obtain ⟨formed, empty⟩ : (ringBuffInit buff size).WellFormed ∧
      (ringBuffInit buff size).stored = [] := init_stored positive
  refine ⟨⟨formed, rfl⟩, ?_⟩
  unfold Session.history Session.start
  rw [empty]
  rfl

/-- The queue behind a run is in order. -/
theorem Session.run_kept (buff : Memory) {size : Nat} (positive : 0 < size)
    (calls : List RingCall) :
    ((Session.start buff size).run calls).history.Kept (size - 1) := by
  obtain ⟨sound, empty⟩ := Session.start_sound buff positive
  rw [(sound.run calls).2, empty]
  have every : ∀ (calls : List RingCall) (history : History UInt8),
      history.Kept (size - 1) →
        (calls.foldl
          (fun history call => history.step (size - 1) (call.meant size))
          history).Kept (size - 1) := by
    intro calls
    induction calls with
    | nil => exact fun _ kept => kept
    | cons call calls inductionHypothesis =>
        exact fun history kept => inductionHypothesis _ (kept.step _)
  exact every calls .empty (History.empty_kept _)

/-- What a call answers and leaves behind. -/
def Answers (ring : RingBuff) : RingCall → Prop
  | .push pData len =>
      let done := ringBuffPushData ring pData len.toInt
      let data := pData.slice 0 len.toInt.toNat
      (0 ≤ len.toInt → len.toInt ≤ ring.size →
        done.accepted = data.take ring.room ∧
          done.ring.stored = ring.stored ++ data.take ring.room ∧
          done.ret =
            if data.length ≤ ring.room then ringbuffOk else ringbuffFull) ∧
        ((ring.size : Int) < len.toInt ∨ len.toInt < 0 →
          done.ring = ring ∧ done.accepted = [])
  | .pop len =>
      let done := ringBuffPopData ring len.toInt
      (0 ≤ len.toInt → len.toInt ≤ ring.size →
        done.ret = min len.toInt ring.stored.length ∧
          done.bytes = ring.stored.take len.toInt.toNat ∧
          done.ring.stored = ring.stored.drop len.toInt.toNat) ∧
        ((ring.size : Int) < len.toInt ∨ len.toInt < 0 →
          done.ring = ring ∧ done.bytes = [])
  | .flush => (ringBuffFlush ring).stored = []

/-- Every call of a well formed buffer answers as a bounded queue does. -/
theorem answers (formed : ring.WellFormed) (call : RingCall) :
    Answers ring call := by
  cases call with
  | push pData len =>
      refine ⟨fun nonneg fits => ?_, push_nothing ring pData⟩
      have loops := push_loops formed pData nonneg fits
      exact ⟨loops.accepted, loops.stored, loops.ret⟩
  | pop len =>
      refine ⟨fun nonneg fits => ?_, pop_nothing ring⟩
      have loops := pop_loops formed nonneg fits
      refine ⟨?_, loops.bytes, loops.stored⟩
      rw [loops.ret, loops.bytes, List.nil_append, List.length_take]
      omega
  | flush => exact (flush_stored (Nat.zero_lt_of_lt formed.read_lt)).2

/-- After any calls, what was popped followed by what is stored is what was
accepted since the last flush, at most `size - 1` bytes are stored, and every
further call answers as a bounded queue does. -/
theorem ringBuff_refinesFifo (buff : Memory) {size : Nat} (two_le : 2 ≤ size)
    (calls : List RingCall) :
    ((Session.start buff size).run calls).popped ++
          ((Session.start buff size).run calls).ring.stored =
        ((Session.start buff size).run calls).accepted ∧
      ((Session.start buff size).run calls).ring.stored.length ≤ size - 1 ∧
      ∀ call, Answers ((Session.start buff size).run calls).ring call := by
  have positive : 0 < size := by omega
  have kept := Session.run_kept buff positive calls
  obtain ⟨sound, -⟩ := Session.start_sound buff positive
  exact ⟨kept.conserved, kept.bounded, answers (sound.run calls).1.formed⟩

theorem ringBuff_refinesFifo_three :
    ((Session.start (fun _ => 7) 3).run
        [.push (fun index => UInt8.ofNat index) 3, .pop 1]).popped ++
          ((Session.start (fun _ => 7) 3).run
            [.push (fun index => UInt8.ofNat index) 3,
              .pop 1]).ring.stored = [0, 1] :=
  (ringBuff_refinesFifo (fun _ => 7) (by decide : 2 ≤ 3)
    [.push (fun index => UInt8.ofNat index) 3, .pop 1]).1

end Refinement

end At
end UIoT
