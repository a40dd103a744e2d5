import UIoT.Defs
import UIoT.Library.ByteStream

/-!
# TCP on Linux

`HAL_TCP_Write` and `HAL_TCP_Read` of `HAL_TCP_linux.c`: loops of `select` and
`send` or `recv` up to a deadline.  What the clock and the system calls answer
in each turn of a loop is given.
-/

namespace UIoT
namespace LinuxTcp

open ByteStream (Ends Traffic passed)

/-! ## The system calls -/

/-- `FD_SETSIZE` -/
def fdSetsize : Nat := 1024

/-- What `select` answers: the socket is ready, or another one is, the time is
up, a signal came, or there is an error. -/
inductive Selected
  | ready
  | elsewhere
  | timedOut
  | interrupted
  | failed
  deriving DecidableEq, Repr

/-- What `send` and `recv` answer: they move so many bytes, or as many as there
are, a signal came, or there is an error. -/
inductive Moved
  | bytes (count : Nat)
  | interrupted
  | failed
  deriving DecidableEq, Repr

/-- A turn of a loop: the clock in milliseconds when the turn begins, the
answers to its system calls, and the clock at the condition of the loop. -/
structure Turn where
  begins : Nat
  selected : Selected
  moved : Moved
  ends : Nat

/-- How a turn leaves the body of its loop. -/
inductive Exit
  | condition
  | loop
  deriving DecidableEq, Repr

/-- `_linux_time_left` -/
def linuxTimeLeft (tEnd tNow : Nat) : Nat :=
  if tEnd > tNow then tEnd - tNow else 0

/-! ## Writing -/

/-- The variables of the loop of `HAL_TCP_Write` and the bytes the socket has
taken. -/
structure Writing where
  ret : Int
  lenSent : Nat
  failed : Bool
  taken : List UInt8

/-- The part of the body behind `select`. -/
def sendPart (buf : List UInt8) (turn : Turn) (w : Writing) : Writing × Exit :=
  if 0 < w.ret then
    match turn.moved with
    | .bytes count =>
        let bytes := (buf.drop w.lenSent).take count
        ({ w with
            ret := bytes.length
            lenSent := w.lenSent + bytes.length
            taken := w.taken ++ bytes }, .condition)
    | .interrupted => ({ w with ret := -1 }, .condition)
    | .failed => ({ w with ret := -1, failed := true }, .loop)
  else (w, .condition)

/-- The body of the loop. -/
def writeTurn (buf : List UInt8) (tEnd : Nat) (turn : Turn) (w : Writing) :
    Writing × Exit :=
  if linuxTimeLeft tEnd turn.begins ≠ 0 then
    match turn.selected with
    | .ready => sendPart buf turn { w with ret := 1 }
    | .elsewhere => ({ w with ret := 0 }, .condition)
    | .timedOut => ({ w with ret := 0 }, .loop)
    | .interrupted => ({ w with ret := -1 }, .condition)
    | .failed => ({ w with ret := -1, failed := true }, .loop)
  else sendPart buf turn w

/-- The loop, which has no end where the turns are used up before. -/
def writeLoop (buf : List UInt8) (tEnd : Nat) :
    List Turn → Writing → Option Writing
  | [], _ => none
  | turn :: turns, w =>
      match writeTurn buf tEnd turn w with
      | (w, .loop) => some w
      | (w, .condition) =>
          if w.failed = false ∧ w.lenSent < buf.length ∧
              linuxTimeLeft tEnd turn.ends > 0 then
            writeLoop buf tEnd turns w
          else some w

/-- What a call returns, and the bytes that have passed the socket. -/
abbrev Result := ByteStream.Result (Except NetError Int) UInt8

/-- `HAL_TCP_Write`, called at a time. -/
def halTcpWrite (fd : Nat) (buf : List UInt8) (timeoutMs start : Nat)
    (turns : List Turn) : Option Result :=
  if fd ≥ fdSetsize then some ⟨.error .failureRet, []⟩
  else
    (writeLoop buf (start + timeoutMs) turns ⟨1, 0, false, []⟩).map fun w =>
      ⟨if w.failed then .error .errTcpWriteFailed
        else .ok (Int.bmod w.lenSent (2 ^ 32)), w.taken⟩

/-! ## Reading -/

/-- The variables of the loop of `HAL_TCP_Read`, the bytes in the buffer and
those that wait at the socket. -/
structure Reading where
  error : Option NetError
  got : List UInt8
  waiting : List UInt8

/-- The body of the loop with a buffer of a length. -/
def readTurn (len tEnd : Nat) (turn : Turn) (r : Reading) : Reading × Exit :=
  if linuxTimeLeft tEnd turn.begins = 0 then (r, .loop)
  else
    match turn.selected with
    | .ready | .elsewhere =>
        match turn.moved with
        | .bytes count =>
            let bytes := r.waiting.take (min count (len - r.got.length))
            if bytes ≠ [] then
              ({ r with
                  got := r.got ++ bytes
                  waiting := r.waiting.drop bytes.length }, .condition)
            else ({ r with error := some .errTcpPeerShutdown }, .loop)
        | .interrupted => (r, .condition)
        | .failed => ({ r with error := some .errTcpReadFailed }, .loop)
    | .timedOut => (r, .loop)
    | .interrupted => (r, .condition)
    | .failed => ({ r with error := some .errTcpReadFailed }, .loop)

/-- The loop. -/
def readLoop (len tEnd : Nat) : List Turn → Reading → Option Reading
  | [], _ => none
  | turn :: turns, r =>
      match readTurn len tEnd turn r with
      | (r, .loop) => some r
      | (r, .condition) =>
          if r.got.length < len then readLoop len tEnd turns r else some r

/-- `HAL_TCP_Read`, called at a time with some bytes waiting at the socket: what
it returns with the bytes in the buffer, and the bytes that still wait. -/
def halTcpRead (fd len timeoutMs start : Nat) (waiting : List UInt8)
    (turns : List Turn) : Option (Result × List UInt8) :=
  if fd ≥ fdSetsize then some (⟨.error .failureRet, []⟩, waiting)
  else
    (readLoop len (start + timeoutMs) turns ⟨none, [], waiting⟩).map fun r =>
      let ret :=
        if r.got.length ≠ 0 then .ok (Int.bmod r.got.length (2 ^ 32))
        else (r.error.map Except.error).getD (.ok 0)
      (⟨ret, r.got⟩, r.waiting)

/-! ## What a write passes on -/

/-- The socket has taken the first bytes of the buffer, as many as are
counted. -/
structure Writing.Counts (w : Writing) (buf : List UInt8) : Prop where
  within : w.lenSent ≤ buf.length
  taken : w.taken = buf.take w.lenSent

theorem sendPart_counts {buf : List UInt8} {w : Writing}
    (counts : w.Counts buf) (turn : Turn) :
    (sendPart buf turn w).1.Counts buf := by
  unfold sendPart
  split
  · cases turn.moved with
    | bytes count =>
        have length : ((buf.drop w.lenSent).take count).length =
            min count (buf.length - w.lenSent) := by
          rw [List.length_take, List.length_drop]
        have within := counts.within
        constructor
        · change w.lenSent + ((buf.drop w.lenSent).take count).length ≤ _
          omega
        · change w.taken ++ (buf.drop w.lenSent).take count =
            buf.take (w.lenSent + ((buf.drop w.lenSent).take count).length)
          have chunk := List.prefix_iff_eq_take.mp
            (List.take_prefix count (buf.drop w.lenSent))
          rw [counts.taken, List.take_add, ← chunk]
    | interrupted => exact ⟨counts.within, counts.taken⟩
    | failed => exact ⟨counts.within, counts.taken⟩
  · exact counts

theorem writeTurn_counts {buf : List UInt8} {w : Writing}
    (counts : w.Counts buf) (tEnd : Nat) (turn : Turn) :
    (writeTurn buf tEnd turn w).1.Counts buf := by
  have same (ret : Int) (failed : Bool) :
      Writing.Counts { w with ret, failed } buf :=
    ⟨counts.within, counts.taken⟩
  unfold writeTurn
  split
  · cases turn.selected with
    | ready => exact sendPart_counts (same 1 w.failed) turn
    | elsewhere => exact same 0 w.failed
    | timedOut => exact same 0 w.failed
    | interrupted => exact same (-1) w.failed
    | failed => exact same (-1) true
  · exact sendPart_counts counts turn

/-- A turn only fails where `select` or `send` does. -/
theorem writeTurn_failed {buf : List UInt8} {tEnd : Nat} {turn : Turn}
    {w : Writing} (failed : (writeTurn buf tEnd turn w).1.failed = true) :
    w.failed = true ∨ turn.selected = .failed ∨ turn.moved = .failed := by
  have sending {w : Writing} (failed : (sendPart buf turn w).1.failed = true) :
      w.failed = true ∨ turn.moved = .failed := by
    unfold sendPart at failed
    split at failed
    · cases moved : turn.moved with
      | bytes count =>
          rw [moved] at failed
          exact .inl failed
      | interrupted =>
          rw [moved] at failed
          exact .inl failed
      | failed => exact .inr rfl
    · exact .inl failed
  unfold writeTurn at failed
  split at failed
  · cases selected : turn.selected with
    | ready =>
        rw [selected] at failed
        exact (sending failed).imp_right .inr
    | elsewhere =>
        rw [selected] at failed
        exact .inl failed
    | timedOut =>
        rw [selected] at failed
        exact .inl failed
    | interrupted =>
        rw [selected] at failed
        exact .inl failed
    | failed => exact .inr (.inl rfl)
  · exact (sending failed).imp_right .inr

/-- A turn only leaves the loop where `select` is out of time, or `select` or
`send` fails. -/
theorem writeTurn_loop {buf : List UInt8} {tEnd : Nat} {turn : Turn}
    {w : Writing} (leaves : (writeTurn buf tEnd turn w).2 = .loop) :
    turn.selected = .timedOut ∨
      (writeTurn buf tEnd turn w).1.failed = true := by
  have sending {w : Writing} (leaves : (sendPart buf turn w).2 = .loop) :
      (sendPart buf turn w).1.failed = true := by
    unfold sendPart at leaves ⊢
    split at leaves
    · rename_i positive
      rw [if_pos positive]
      cases moved : turn.moved with
      | bytes count =>
          rw [moved] at leaves
          cases leaves
      | interrupted =>
          rw [moved] at leaves
          cases leaves
      | failed => rfl
    · cases leaves
  unfold writeTurn at leaves ⊢
  split at leaves
  · rename_i left
    rw [if_pos left]
    cases selected : turn.selected with
    | ready =>
        rw [selected] at leaves
        exact .inr (sending leaves)
    | elsewhere =>
        rw [selected] at leaves
        cases leaves
    | timedOut => exact .inl rfl
    | interrupted =>
        rw [selected] at leaves
        cases leaves
    | failed => exact .inr rfl
  · rename_i none
    rw [if_neg none]
    exact .inr (sending leaves)

/-- How the loop ends: it counts what the socket has taken; it fails where a
call fails; and it ends before the buffer does only out of time. -/
structure Writing.Ends (w : Writing) (buf : List UInt8) (tEnd : Nat)
    (turns : List Turn) : Prop where
  counts : w.Counts buf
  failed : w.failed = true →
    ∃ turn ∈ turns, turn.selected = .failed ∨ turn.moved = .failed
  short : w.failed = false → w.lenSent < buf.length →
    ∃ turn ∈ turns, turn.selected = .timedOut ∨ tEnd ≤ turn.ends

theorem linuxTimeLeft_pos_iff (tEnd tNow : Nat) :
    linuxTimeLeft tEnd tNow > 0 ↔ tNow < tEnd := by
  unfold linuxTimeLeft
  split <;> omega

theorem writeLoop_ends {buf : List UInt8} {tEnd : Nat} {turns : List Turn}
    {w w' : Writing} (counts : w.Counts buf) (fine : w.failed = false)
    (result : writeLoop buf tEnd turns w = some w') :
    w'.Ends buf tEnd turns := by
  induction turns generalizing w with
  | nil => cases result
  | cons turn turns inductionHypothesis =>
      have counted := writeTurn_counts counts tEnd turn
      have failing := @writeTurn_failed buf tEnd turn w
      have leaving := @writeTurn_loop buf tEnd turn w
      rw [writeLoop] at result
      generalize writeTurn buf tEnd turn w = after
        at result counted failing leaving
      obtain ⟨next, exit⟩ := after
      have failed (failed : next.failed = true) : ∃ other ∈ turn :: turns,
          other.selected = .failed ∨ other.moved = .failed :=
        ⟨turn, List.mem_cons_self, (failing failed).resolve_left
          (by rw [fine]; decide)⟩
      cases exit with
      | loop =>
          obtain rfl := Option.some.inj result
          refine ⟨counted, failed, fun fine' _ => ?_⟩
          have timedOut := (leaving rfl).resolve_right (by rw [fine']; decide)
          exact ⟨turn, List.mem_cons_self, .inl timedOut⟩
      | condition =>
          dsimp only at result
          split at result
          · rename_i goesOn
            have ends := inductionHypothesis counted goesOn.1 result
            refine ⟨ends.counts, fun failed => ?_, fun fine short => ?_⟩
            · obtain ⟨other, mem, failed⟩ := ends.failed failed
              exact ⟨other, List.mem_cons_of_mem _ mem, failed⟩
            · obtain ⟨other, mem, late⟩ := ends.short fine short
              exact ⟨other, List.mem_cons_of_mem _ mem, late⟩
          · rename_i done
            obtain rfl := Option.some.inj result
            refine ⟨counted, failed, fun fine short => ?_⟩
            refine ⟨turn, List.mem_cons_self, .inr ?_⟩
            rw [linuxTimeLeft_pos_iff] at done
            by_contra early
            exact done ⟨fine, short, Nat.lt_of_not_le early⟩

/-- Once the clock is past the deadline at the condition, the loop ends. -/
theorem writeLoop_returns {buf : List UInt8} {tEnd : Nat} {turns : List Turn}
    (late : ∃ turn ∈ turns, tEnd ≤ turn.ends) (w : Writing) :
    (writeLoop buf tEnd turns w).isSome := by
  induction turns generalizing w with
  | nil =>
      obtain ⟨turn, mem, -⟩ := late
      cases mem
  | cons turn turns inductionHypothesis =>
      rw [writeLoop]
      generalize writeTurn buf tEnd turn w = after
      obtain ⟨next, exit⟩ := after
      cases exit with
      | loop => rfl
      | condition =>
          dsimp only
          split
          · rename_i goesOn
            rw [linuxTimeLeft_pos_iff] at goesOn
            obtain ⟨other, mem, past⟩ := late
            rcases List.mem_cons.mp mem with rfl | later
            · omega
            · exact inductionHypothesis ⟨other, later, past⟩ next
          · rfl

/-- What a write comes to, that is called on a socket at a time.  The bytes the
socket has taken are the first ones of the buffer.  Without an error they are
counted, and there are fewer than in the buffer only if `select` or the clock
were out of time; there is an error only if a system call failed. -/
structure WritesPrefix (buf : List UInt8) (tEnd : Nat) (turns : List Turn)
    (result : Result) : Prop where
  prefix_ : result.bytes <+: buf
  counted : ∀ sent, result.ret = .ok sent → buf.length < 2 ^ 31 →
    sent = result.bytes.length
  short : ∀ sent, result.ret = .ok sent → result.bytes ≠ buf →
    ∃ turn ∈ turns, turn.selected = .timedOut ∨ tEnd ≤ turn.ends
  error : ∀ error, result.ret = .error error →
    ∃ turn ∈ turns, turn.selected = .failed ∨ turn.moved = .failed

theorem bmod_of_lt {number : Nat} (small : number < 2 ^ 31) :
    Int.bmod number (2 ^ 32) = number := by
  rw [Int.bmod_eq_of_le]
  all_goals omega

theorem halTcpWrite_writesPrefix {fd : Nat} (valid : fd < fdSetsize)
    {buf : List UInt8} {timeoutMs start : Nat} {turns : List Turn}
    {result : Result}
    (returns : halTcpWrite fd buf timeoutMs start turns = some result) :
    WritesPrefix buf (start + timeoutMs) turns result := by
  unfold halTcpWrite at returns
  rw [if_neg (Nat.not_le.mpr valid)] at returns
  obtain ⟨w, loops, same⟩ := Option.map_eq_some_iff.mp returns
  have none : (⟨1, 0, false, []⟩ : Writing).Counts buf :=
    ⟨Nat.zero_le _, rfl⟩
  have ends := writeLoop_ends none rfl loops
  have length : w.taken.length = w.lenSent := by
    rw [ends.counts.taken, List.length_take]
    exact Nat.min_eq_left ends.counts.within
  have within := ends.counts.within
  subst same
  refine ⟨?_, fun sent ok small => ?_, fun sent ok cut => ?_,
    fun error failed => ?_⟩
  · dsimp only
    rw [ends.counts.taken]
    exact List.take_prefix ..
  · dsimp only at ok ⊢
    split at ok
    · cases ok
    · rw [bmod_of_lt (by omega)] at ok
      rw [length]
      exact (Except.ok.inj ok).symm
  · dsimp only at ok cut
    split at ok
    · cases ok
    · rename_i fine
      refine ends.short (Bool.eq_false_iff.mpr fine) ?_
      by_contra whole
      refine cut ?_
      rw [ends.counts.taken]
      exact List.take_of_length_le (Nat.le_of_not_lt whole)
  · dsimp only at failed
    split at failed
    · rename_i fails
      exact ends.failed fails
    · cases failed

/-! ## What a read hands on -/

/-- What is in the buffer and what waits at the socket is what has waited before
the call, and the buffer is long enough. -/
structure Reading.Keeps (r : Reading) (len : Nat) (waiting : List UInt8) :
    Prop where
  all : r.got ++ r.waiting = waiting
  within : r.got.length ≤ len

theorem readTurn_keeps {len : Nat} {waiting : List UInt8} {r : Reading}
    (keeps : r.Keeps len waiting) (tEnd : Nat) (turn : Turn) :
    (readTurn len tEnd turn r).1.Keeps len waiting := by
  have same (error : Option NetError) :
      Reading.Keeps { r with error } len waiting := ⟨keeps.all, keeps.within⟩
  have receives :
      (readTurn len tEnd { turn with selected := .ready } r).1.Keeps len
        waiting := by
    unfold readTurn
    split
    · exact keeps
    · cases turn.moved with
      | bytes count =>
          dsimp only
          split
          · have within := keeps.within
            constructor
            · exact (ByteStream.append_take_append_drop ..).trans keeps.all
            · dsimp only
              rw [List.length_append, List.length_take]
              omega
          · exact same _
      | interrupted => exact keeps
      | failed => exact same _
  unfold readTurn at receives ⊢
  split
  · exact keeps
  · rename_i left
    rw [if_neg left] at receives
    cases turn.selected with
    | ready => exact receives
    | elsewhere => exact receives
    | timedOut => exact keeps
    | interrupted => exact keeps
    | failed => exact same _

theorem readLoop_keeps {len tEnd : Nat} {turns : List Turn}
    {waiting : List UInt8} {r r' : Reading} (keeps : r.Keeps len waiting)
    (result : readLoop len tEnd turns r = some r') : r'.Keeps len waiting := by
  induction turns generalizing r with
  | nil => cases result
  | cons turn turns inductionHypothesis =>
      have kept := readTurn_keeps keeps tEnd turn
      rw [readLoop] at result
      generalize readTurn len tEnd turn r = after at result kept
      obtain ⟨next, exit⟩ := after
      cases exit with
      | loop => exact Option.some.inj result ▸ kept
      | condition =>
          dsimp only at result
          split at result
          · exact inductionHypothesis kept result
          · exact Option.some.inj result ▸ kept

/-- A turn that begins past the deadline is the last one. -/
theorem readLoop_returns {len tEnd : Nat} {turns : List Turn}
    (late : ∃ turn ∈ turns, tEnd ≤ turn.begins) (r : Reading) :
    (readLoop len tEnd turns r).isSome := by
  induction turns generalizing r with
  | nil =>
      obtain ⟨turn, mem, -⟩ := late
      cases mem
  | cons turn turns inductionHypothesis =>
      obtain ⟨other, mem, past⟩ := late
      rw [readLoop]
      rcases List.mem_cons.mp mem with rfl | later
      · have none : linuxTimeLeft tEnd other.begins = 0 :=
          if_neg (Nat.not_lt.mpr past)
        rw [readTurn, if_pos none]
        rfl
      · generalize readTurn len tEnd turn r = after
        obtain ⟨next, exit⟩ := after
        cases exit with
        | loop => rfl
        | condition =>
            dsimp only
            split
            · exact inductionHypothesis ⟨other, later, past⟩ next
            · rfl

/-- What a read comes to: the bytes in the buffer are those that waited first,
they fit and are counted, and an error is only returned where there are none. -/
structure ReadsPrefix (len : Nat) (waiting : List UInt8) (result : Result)
    (behind : List UInt8) : Prop where
  all : result.bytes ++ behind = waiting
  within : result.bytes.length ≤ len
  counted : ∀ got, result.ret = .ok got → len < 2 ^ 31 →
    got = result.bytes.length
  error : ∀ error, result.ret = .error error → result.bytes = []

theorem halTcpRead_readsPrefix (fd len timeoutMs start : Nat)
    (waiting : List UInt8) {turns : List Turn} {result : Result}
    {behind : List UInt8}
    (returns : halTcpRead fd len timeoutMs start waiting turns =
      some (result, behind)) :
    ReadsPrefix len waiting result behind := by
  unfold halTcpRead at returns
  split at returns
  · obtain ⟨rfl, rfl⟩ := Prod.mk.inj (Option.some.inj returns)
    refine ⟨rfl, Nat.zero_le _, fun got ok => ?_, fun _ _ => rfl⟩
    cases ok
  · obtain ⟨r, loops, same⟩ := Option.map_eq_some_iff.mp returns
    obtain ⟨rfl, rfl⟩ := Prod.mk.inj same
    have none : (⟨none, [], waiting⟩ : Reading).Keeps len waiting :=
      ⟨rfl, Nat.zero_le _⟩
    have keeps := readLoop_keeps none loops
    have within := keeps.within
    refine ⟨keeps.all, within, fun got ok small => ?_, fun error failed => ?_⟩
    · dsimp only at ok ⊢
      split at ok
      · rw [bmod_of_lt (by omega)] at ok
        exact (Except.ok.inj ok).symm
      · rename_i none
        rw [not_not.mp none]
        cases error : r.error with
        | none =>
            rw [error] at ok
            exact (Except.ok.inj ok).symm
        | some error' =>
            rw [error] at ok
            cases ok
    · dsimp only at failed ⊢
      split at failed
      · cases failed
      · rename_i none
        exact List.eq_nil_of_length_eq_zero (not_not.mp none)

/-! ## A stream between two sockets -/

/-- A call of `HAL_TCP_Write`, with what the system answers. -/
structure Write where
  fd : Nat
  buf : List UInt8
  timeoutMs : Nat
  start : Nat
  turns : List Turn

/-- A call of `HAL_TCP_Read`, with what the system answers. -/
structure Read where
  fd : Nat
  len : Nat
  timeoutMs : Nat
  start : Nat
  turns : List Turn

/-- The two ends of a connection. -/
def ends : Ends Write Read (Except NetError Int) UInt8 where
  write call :=
    halTcpWrite call.fd call.buf call.timeoutMs call.start call.turns
  read call waiting :=
    halTcpRead call.fd call.len call.timeoutMs call.start waiting call.turns

/-- A call that writes passes the first of its buffer and tells how many, unless
its socket is out of range. -/
def Write.Tells (call : Write) (result : Result) : Prop :=
  if call.fd < fdSetsize then
    WritesPrefix call.buf (call.start + call.timeoutMs) call.turns result
  else result = ⟨.error .failureRet, []⟩

/-- A call that reads hands on no more than there is room for, tells how many,
and has none where it returns an error. -/
structure Read.Tells (call : Read) (result : Result) : Prop where
  within : result.bytes.length ≤ call.len
  counted : ∀ got, result.ret = .ok got → call.len < 2 ^ 31 →
    got = result.bytes.length
  error : ∀ error, result.ret = .error error → result.bytes = []

theorem ends_sound : ends.Sound Write.Tells Read.Tells := by
  constructor
  · intro call result returns
    unfold Write.Tells
    split
    · rename_i valid
      exact halTcpWrite_writesPrefix valid returns
    · rename_i invalid
      change halTcpWrite call.fd _ _ _ _ = _ at returns
      rw [halTcpWrite, if_pos (Nat.le_of_not_lt invalid)] at returns
      exact (Option.some.inj returns).symm
  · intro call waiting result behind returns
    have reads := halTcpRead_readsPrefix call.fd call.len call.timeoutMs
      call.start waiting returns
    exact ⟨reads.all, reads.within, reads.counted, reads.error⟩

/-- The clock passes the deadline of the call while it runs. -/
def Expires : Write ⊕ Read → Prop
  | .inl call => ∃ turn ∈ call.turns, call.start + call.timeoutMs ≤ turn.ends
  | .inr call => ∃ turn ∈ call.turns, call.start + call.timeoutMs ≤ turn.begins

theorem perform_of_expires {call : Write ⊕ Read} (expires : Expires call)
    (t : Traffic Write Read (Except NetError Int) UInt8) :
    (ends.perform t call).isSome := by
  cases call with
  | inl call =>
      change ((halTcpWrite call.fd _ _ _ _).map _).isSome
      rw [Option.isSome_map, halTcpWrite]
      split
      · rfl
      · rw [Option.isSome_map]
        exact writeLoop_returns expires _
  | inr call =>
      change ((halTcpRead call.fd _ _ _ _ _).map _).isSome
      rw [Option.isSome_map, halTcpRead]
      split
      · rfl
      · rw [Option.isSome_map]
        exact readLoop_returns expires _

/-- Calls of `HAL_TCP_Write` at one end of a stream and of `HAL_TCP_Read` at the
other, in any order and with whatever the system answers: the bytes that are
read are those that were written, in their order, up to the ones on their way;
and once the clock passes their deadlines the calls return. -/
theorem tcpRun_inOrder (calls : List (Write ⊕ Read)) :
    (∀ t, ends.run .none calls = some t → t.InOrder Write.Tells Read.Tells) ∧
      ((∀ call ∈ calls, Expires call) → (ends.run .none calls).isSome) :=
  ⟨fun _ runs => ends_sound.run_none runs,
    fun expires => Ends.isSome_run
      (fun call mem => perform_of_expires (expires call mem)) .none⟩

/-- A write that is cut short and interrupted, and two reads. -/
def interruptedCalls : List (Write ⊕ Read) :=
  [.inl ⟨5, [7, 8, 9], 100, 0,
      [⟨0, .ready, .bytes 2, 1⟩, ⟨1, .interrupted, .failed, 2⟩,
        ⟨2, .ready, .bytes 4, 100⟩]⟩,
    .inr ⟨6, 2, 100, 50,
      [⟨60, .ready, .bytes 1, 61⟩, ⟨61, .ready, .interrupted, 62⟩,
        ⟨150, .ready, .bytes 1, 151⟩]⟩,
    .inr ⟨6, 2, 100, 200,
      [⟨201, .ready, .bytes 9, 202⟩, ⟨300, .timedOut, .failed, 301⟩]⟩]

theorem tcpRun_inOrder_interruptedCalls :
    ∃ t, ends.run .none interruptedCalls = some t ∧
      passed t.read = [7, 8, 9] ∧ t.waiting = [] ∧
      t.InOrder Write.Tells Read.Tells := by
  have runs : (ends.run .none interruptedCalls).isSome := rfl
  obtain ⟨t, finish⟩ := Option.isSome_iff_exists.mp runs
  obtain rfl := Option.some.inj finish
  exact ⟨_, rfl, rfl, rfl, (tcpRun_inOrder interruptedCalls).1 _ rfl⟩

end LinuxTcp
end UIoT
