import Mathlib.Algebra.GroupWithZero.Nat
import UIoT.Defs
import UIoT.Library.ByteStream

/-!
# TLS

`HAL_TLS_Write` and `HAL_TLS_Read` of `HAL_TLS_mbedtls.c`: loops around
`mbedtls_ssl_write` and `mbedtls_ssl_read` until a timer has expired.  How often
the timer is tested before it has expired, and what the library answers, is
given.
-/

namespace UIoT
namespace Tls

open ByteStream (Ends Traffic passed)

/-! ## Writing -/

/-- What `mbedtls_ssl_write` and `mbedtls_ssl_read` answer: they move so many
bytes, or as many as there are, or want something else first, or time is out, or
there is another error. -/
inductive SslAnswer
  | bytes (count : Nat)
  | wantRead
  | wantWrite
  | timeout
  | failed
  deriving DecidableEq, Repr

/-- `MBEDTLS_ERR_SSL_WANT_READ` -/
def mbedtlsErrSslWantRead : Int := -0x6900

/-- `MBEDTLS_ERR_SSL_WANT_WRITE` -/
def mbedtlsErrSslWantWrite : Int := -0x6880

/-- The variables of `HAL_TLS_Write` and the bytes the library has accepted. -/
structure Writing where
  writtenSoFar : Nat
  writeRc : Int
  taken : List UInt8

/-- `written_so_far += write_rc`, on a `size_t`. -/
def Writing.advance (w : Writing) : Writing :=
  { w with
    writtenSoFar := ((w.writtenSoFar + w.writeRc) % 2 ^ 64).toNat }

/-- What a call returns, and the bytes that have passed the library. -/
abbrev Result := ByteStream.Result (Except NetError Int) UInt8

/-- The loops of `HAL_TLS_Write` from a test of the timer on, which is the one
of the outer loop or, inside, the one of the inner loop: the variables behind
them and `errorFlag`. -/
def writeLoop (buf : List UInt8) :
    (left : Nat) → (inside : Bool) → List SslAnswer → Writing →
      Option (Writing × Bool)
  | 0, false, _, w => some (w, false)
  | 0, true, _, w => some (w.advance, false)
  | left + 1, false, answers, w =>
      if w.writtenSoFar < buf.length then writeLoop buf left true answers w
      else some (w, false)
  | _ + 1, true, [], _ => none
  | left + 1, true, answer :: answers, w =>
      match answer with
      | .bytes count =>
          let bytes := (buf.drop w.writtenSoFar).take count
          let w :=
            { w with writeRc := bytes.length, taken := w.taken ++ bytes }
          if bytes = [] then some (w, true)
          else writeLoop buf left false answers w.advance
      | .wantRead =>
          writeLoop buf left true answers
            { w with writeRc := mbedtlsErrSslWantRead }
      | .wantWrite =>
          writeLoop buf left true answers
            { w with writeRc := mbedtlsErrSslWantWrite }
      | .timeout | .failed => some (w, true)

/-- `HAL_TLS_Write`, with a timer that has expired after so many tests. -/
def halTlsWrite (buf : List UInt8) (left : Nat) (answers : List SslAnswer) :
    Option Result :=
  (writeLoop buf left false answers ⟨0, 0, []⟩).map fun (w, errorFlag) =>
    ⟨if errorFlag then .error .errSslWriteFailed
      else .ok (Int.bmod w.writtenSoFar (2 ^ 32)), w.taken⟩

/-! ## Reading -/

/-- The bytes in the buffer of `HAL_TLS_Read` and those that wait in the
library. -/
structure Reading where
  got : List UInt8
  waiting : List UInt8

/-- The body of the loop in front of its test of the timer, and whether the
library has failed. -/
def readTurn (len : Nat) (answer : SslAnswer) (r : Reading) : Reading × Bool :=
  match answer with
  | .bytes count =>
      let bytes := r.waiting.take (min count (len - r.got.length))
      if bytes = [] then (r, true)
      else (⟨r.got ++ bytes, r.waiting.drop bytes.length⟩, false)
  | .wantRead | .wantWrite | .timeout => (r, false)
  | .failed => (r, true)

/-- The loop. -/
def readLoop (len : Nat) :
    (left : Nat) → List SslAnswer → Reading → Option (Reading × Bool)
  | _, [], r => if r.got.length < len then none else some (r, false)
  | left, answer :: answers, r =>
      if r.got.length < len then
        match readTurn len answer r with
        | (r, true) => some (r, true)
        | (r, false) =>
            match left with
            | 0 => some (r, false)
            | left + 1 => readLoop len left answers r
      else some (r, false)

/-- `HAL_TLS_Read`, with some bytes waiting in the library: what it returns with
the bytes in the buffer, and the bytes that still wait. -/
def halTlsRead (len left : Nat) (answers : List SslAnswer)
    (waiting : List UInt8) : Option (Result × List UInt8) :=
  (readLoop len left answers ⟨[], waiting⟩).map fun (r, failed) =>
    (⟨if failed then .error .errSslReadFailed
      else .ok (Int.bmod r.got.length (2 ^ 32)), r.got⟩, r.waiting)

/-! ## What a write passes on -/

/-- The loop goes on after the answer. -/
def SslAnswer.goesOn : SslAnswer → Bool
  | .bytes count => count ≠ 0
  | .wantRead | .wantWrite => true
  | .timeout | .failed => false

/-- The bytes the library would move. -/
def SslAnswer.count : SslAnswer → Nat
  | .bytes count => count
  | _ => 0

/-- The tests of the timer from one in the inner loop on, until the library has
given some answers: behind bytes it is tested twice. -/
def tests (answers : List SslAnswer) : Nat :=
  (answers.map fun answer => if answer.count = 0 then 1 else 2).sum

/-- The timer expires at the test of the inner loop behind some answers, or
behind none where that counts. -/
def ExpiresInside (room left : Nat) (answers : List SslAnswer)
    (first : Prop) : Prop :=
  ∃ before, before <+: answers ∧ (before = [] → first) ∧
    (∀ answer ∈ before, answer.goesOn = true) ∧
    (before.map SslAnswer.count).sum < room ∧ left = tests before

theorem tests_cons (answer : SslAnswer) (answers : List SslAnswer) :
    tests (answer :: answers) =
      (if answer.count = 0 then 1 else 2) + tests answers := by
  rw [tests, List.map_cons, List.sum_cons, tests]

theorem expiresInside_zero {room : Nat} (positive : 0 < room)
    (answers : List SslAnswer) (first : Prop) :
    ExpiresInside room 0 answers first ↔ first := by
  constructor
  · rintro ⟨before, -, fresh, -, -, spent⟩
    cases before with
    | nil => exact fresh rfl
    | cons answer before =>
        rw [tests_cons] at spent
        split at spent <;> omega
  · intro holds
    exact ⟨[], List.nil_prefix, fun _ => holds, List.forall_mem_nil _,
      positive, rfl⟩

theorem expiresInside_cons (room left : Nat) (answer : SslAnswer)
    (answers : List SslAnswer) (first : Prop) :
    ExpiresInside room (left + 1) (answer :: answers) first ↔
      answer.goesOn = true ∧ answer.count < room ∧
        ∃ rest, left + 1 = (if answer.count = 0 then 1 else 2) + rest ∧
          ExpiresInside (room - answer.count) rest answers True := by
  constructor
  · rintro ⟨before, isPrefix, fresh, goOn, small, spent⟩
    cases before with
    | nil => cases spent
    | cons head before =>
        obtain ⟨rfl, later⟩ := List.cons_prefix_cons.mp isPrefix
        obtain ⟨goesOn, others⟩ := List.forall_mem_cons.mp goOn
        rw [List.map_cons, List.sum_cons] at small
        rw [tests_cons] at spent
        refine ⟨goesOn, by omega, _, spent, before, later, ?_, others, ?_, rfl⟩
        · exact fun _ => trivial
        · omega
  · rintro ⟨goesOn, small, rest, spent, before, isPrefix, -, goOn, fewer, rfl⟩
    have all : ∀ other ∈ answer :: before, other.goesOn = true :=
      List.forall_mem_cons.mpr ⟨goesOn, goOn⟩
    refine ⟨answer :: before, List.cons_prefix_cons.mpr ⟨rfl, isPrefix⟩,
      fun empty => ?_, all, ?_, ?_⟩
    · cases empty
    · rw [List.map_cons, List.sum_cons]
      omega
    · rw [tests_cons]
      exact spent

/-- The library has accepted the first bytes of the buffer, as many as are
counted. -/
structure Writing.Counts (w : Writing) (buf : List UInt8) : Prop where
  counted : w.writtenSoFar = w.taken.length
  taken : w.taken <+: buf
  rc : -2 ^ 15 < w.writeRc ∧ w.writeRc < 2 ^ 31

/-- How the loops end that start with a state: the library has accepted the
first bytes of the buffer, and they are counted unless the timer expires at a
test of the inner loop behind an answer. -/
structure Writing.Ends (w : Writing) (buf : List UInt8)
    (answers : List SslAnswer) (inside : Prop) (errorFlag : Bool) : Prop where
  taken : w.taken <+: buf
  told : errorFlag = false →
    (Int.bmod w.writtenSoFar (2 ^ 32) = w.taken.length ↔ ¬inside)
  failed : errorFlag = true → ∃ answer ∈ answers, answer.goesOn = false

/-- A count that is an `int` is told as it is. -/
theorem bmod_of_lt {number : Nat} (small : number < 2 ^ 31) :
    Int.bmod number (2 ^ 32) = number := by
  rw [Int.bmod_eq_of_le]
  all_goals omega

/-- The last answer added once more shows unless it is zero. -/
theorem bmod_advance {w : Writing} {buf : List UInt8} (counts : w.Counts buf)
    (small : buf.length < 2 ^ 31) :
    Int.bmod w.advance.writtenSoFar (2 ^ 32) = w.taken.length ↔
      ¬w.writeRc ≠ 0 := by
  have fits := counts.taken.length_le
  have rc := counts.rc
  have counted := counts.counted
  unfold Writing.advance
  dsimp only
  rw [Int.toNat_of_nonneg (Int.emod_nonneg _ (by decide)), counted, not_not,
    Int.bmod_def]
  split <;> omega

/-- An answer that does not move bytes, and after which the loop goes on. -/
theorem expiresInside_want {answer : SslAnswer} (goesOn : answer.goesOn = true)
    (none : answer.count = 0) {room : Nat} (positive : 0 < room) (left : Nat)
    (answers : List SslAnswer) (first : Prop) :
    ExpiresInside room (left + 1) (answer :: answers) first ↔
      ExpiresInside room left answers True := by
  rw [expiresInside_cons, none, if_pos rfl, Nat.sub_zero]
  constructor
  · rintro ⟨-, -, rest, spent, inside⟩
    obtain rfl : left = rest := by omega
    exact inside
  · intro inside
    exact ⟨goesOn, positive, left, Nat.add_comm .., inside⟩

/-- An answer that moves bytes: the outer test comes before the inner one. -/
theorem expiresInside_bytes {count : Nat} (nonzero : count ≠ 0)
    (room left : Nat) (answers : List SslAnswer) (first : Prop) :
    ExpiresInside room (left + 1) (.bytes count :: answers) first ↔
      count < room ∧ ∃ rest, left = rest + 1 ∧
        ExpiresInside (room - count) rest answers True := by
  have goesOn : (SslAnswer.bytes count).goesOn = true :=
    decide_eq_true nonzero
  rw [expiresInside_cons, SslAnswer.count, if_neg nonzero]
  constructor
  · rintro ⟨-, small, rest, spent, inside⟩
    exact ⟨small, rest, by omega, inside⟩
  · rintro ⟨small, rest, rfl, inside⟩
    exact ⟨goesOn, small, rest, by omega, inside⟩

theorem Writing.Ends.mono {w : Writing} {buf : List UInt8}
    {answers : List SslAnswer} {inside inside' : Prop} {errorFlag : Bool}
    (ends : w.Ends buf answers inside errorFlag) (same : inside' ↔ inside)
    (answer : SslAnswer) : w.Ends buf (answer :: answers) inside' errorFlag :=
  ⟨ends.taken, fun fine => (ends.told fine).trans (not_congr same.symm),
    fun failed =>
      let ⟨other, mem, stops⟩ := ends.failed failed
      ⟨other, List.mem_cons_of_mem _ mem, stops⟩⟩

/-- The bytes an answer moves are the next ones of the buffer. -/
theorem Writing.Counts.accept {w : Writing} {buf : List UInt8}
    (counts : w.Counts buf) (small : buf.length < 2 ^ 31) (count : Nat) :
    let bytes := (buf.drop w.writtenSoFar).take count
    let next : Writing :=
      { w with writeRc := bytes.length, taken := w.taken ++ bytes }
    next.advance.Counts buf := by
  intro bytes next
  have fits := counts.taken.length_le
  have taken : w.taken = buf.take w.writtenSoFar := by
    rw [counts.counted]
    exact List.prefix_iff_eq_take.mp counts.taken
  have length : bytes.length ≤ buf.length - w.writtenSoFar := by
    unfold bytes
    rw [List.length_take, List.length_drop]
    exact Nat.min_le_right ..
  refine ⟨?_, ?_, ?_⟩
  · have counted := counts.counted
    change ((w.writtenSoFar + bytes.length : Int) % 2 ^ 64).toNat =
      (w.taken ++ bytes).length
    rw [List.length_append]
    omega
  · change w.taken ++ bytes <+: buf
    rw [taken]
    have front : bytes <+: buf.drop w.writtenSoFar := List.take_prefix ..
    have all := List.prefix_append_right_inj (buf.take w.writtenSoFar)
      |>.mpr front
    rwa [List.take_append_drop] at all
  · change -2 ^ 15 < (bytes.length : Int) ∧ (bytes.length : Int) < 2 ^ 31
    omega

/-- How the loops are to end from a test of the inner one on. -/
def Inside (buf : List UInt8) (w' : Writing) (errorFlag : Bool) (left : Nat) :
    Prop :=
  ∀ {answers : List SslAnswer} {w : Writing}, w.Counts buf →
    w.taken.length < buf.length →
    writeLoop buf left true answers w = some (w', errorFlag) →
    w'.Ends buf answers
      (ExpiresInside (buf.length - w.taken.length) left answers
        (w.writeRc ≠ 0)) errorFlag

section
variable {buf : List UInt8} (small : buf.length < 2 ^ 31)
include small

/-- The loops behind an answer that moves bytes. -/
theorem ends_of_bytes {w' : Writing} {errorFlag : Bool} {left count : Nat}
    (nonzero : count ≠ 0) {next : Writing} {room : Nat}
    (counts : next.Counts buf) (moved : next.writeRc ≠ 0)
    (rest : buf.length - next.taken.length = room - count)
    (inner : ∀ less < left, Inside buf w' errorFlag less)
    {answers : List SslAnswer} (first : Prop)
    (returns : writeLoop buf left false answers next = some (w', errorFlag)) :
    w'.Ends buf (.bytes count :: answers)
      (ExpiresInside room (left + 1) (.bytes count :: answers) first)
      errorFlag := by
  rw [expiresInside_bytes nonzero]
  have fits := counts.taken.length_le
  -- At the outer test the bytes are counted once.
  have finish {inside : Prop} (outside : ¬inside)
      (result : some (next, false) = some (w', errorFlag)) :
      w'.Ends buf (.bytes count :: answers) inside errorFlag := by
    obtain ⟨rfl, rfl⟩ := Prod.mk.inj (Option.some.inj result)
    refine ⟨counts.taken, fun _ => ?_, fun failed => ?_⟩
    · rw [counts.counted, bmod_of_lt (Nat.lt_of_le_of_lt fits small)]
      exact iff_of_true rfl outside
    · cases failed
  cases left with
  | zero =>
      rw [writeLoop] at returns
      refine finish ?_ returns
      rintro ⟨-, rest, spent, -⟩
      cases spent
  | succ left =>
      rw [writeLoop, counts.counted] at returns
      split at returns
      · rename_i short
        have ends := inner left (Nat.lt_succ_self _) counts short returns
        refine ends.mono ?_ _
        rw [rest]
        simp only [moved, ne_eq, not_false_eq_true]
        constructor
        · rintro ⟨-, rest, spent, inside⟩
          obtain rfl := Nat.succ.inj spent
          exact inside
        · intro inside
          exact ⟨by omega, left, rfl, inside⟩
      · rename_i whole
        refine finish ?_ returns
        rintro ⟨less, -⟩
        omega

/-- The loops from a test of the inner one on. -/
theorem writeLoop_inside (w' : Writing) (errorFlag : Bool) (left : Nat) :
    Inside buf w' errorFlag left := by
  induction left using Nat.strong_induction_on with
  | h left inductionHypothesis =>
    intro answers w counts room returns
    have positive : 0 < buf.length - w.taken.length := by omega
    cases left with
    | zero =>
        rw [writeLoop] at returns
        obtain ⟨rfl, rfl⟩ := Prod.mk.inj (Option.some.inj returns)
        refine ⟨counts.taken, fun _ => ?_, fun failed => ?_⟩
        · rw [expiresInside_zero positive]
          exact bmod_advance counts small
        · cases failed
    | succ left =>
        cases answers with
        | nil => cases returns
        | cons answer answers =>
            have stops {inside : Prop} (stops : answer.goesOn = false)
                (ends : some (w, true) = some (w', errorFlag)) :
                w'.Ends buf (answer :: answers) inside errorFlag := by
              obtain ⟨rfl, rfl⟩ := Prod.mk.inj (Option.some.inj ends)
              refine ⟨counts.taken, fun fine => ?_, fun _ => ?_⟩
              · cases fine
              · exact ⟨answer, List.mem_cons_self, stops⟩
            have wants {rc : Int} (goesOn : answer.goesOn = true)
                (none : answer.count = 0) (nonzero : rc ≠ 0)
                (bounds : -2 ^ 15 < rc ∧ rc < 2 ^ 31)
                (rest : writeLoop buf left true answers
                  { w with writeRc := rc } = some (w', errorFlag)) :
                w'.Ends buf (answer :: answers)
                  (ExpiresInside (buf.length - w.taken.length) (left + 1)
                    (answer :: answers) (w.writeRc ≠ 0)) errorFlag := by
              have counts' : Writing.Counts { w with writeRc := rc } buf :=
                ⟨counts.counted, counts.taken, bounds⟩
              have ends := inductionHypothesis left (Nat.lt_succ_self _)
                counts' room rest
              refine ends.mono ?_ answer
              rw [expiresInside_want goesOn none positive]
              simp only [nonzero, ne_eq, not_false_eq_true]
            cases answer with
            | bytes count =>
                have length : ((buf.drop w.writtenSoFar).take count).length =
                    min count (buf.length - w.taken.length) := by
                  rw [List.length_take, List.length_drop, counts.counted]
                have accepted := counts.accept small count
                rw [writeLoop] at returns
                dsimp only at returns accepted
                generalize (buf.drop w.writtenSoFar).take count = bytes
                  at returns accepted length
                split at returns
                · rename_i nothing
                  rw [nothing, List.length_nil] at length
                  rw [nothing, List.append_nil] at returns
                  obtain ⟨rfl, rfl⟩ := Prod.mk.inj (Option.some.inj returns)
                  refine ⟨counts.taken, fun fine => ?_, fun _ => ?_⟩
                  · cases fine
                  · refine ⟨_, List.mem_cons_self, ?_⟩
                    exact decide_eq_false (not_not_intro (by omega))
                · rename_i nonempty
                  have moves := List.length_pos_of_ne_nil nonempty
                  have moved : (bytes.length : Int) ≠ 0 := by omega
                  refine ends_of_bytes small (by omega) accepted moved ?_
                    (fun less lt => inductionHypothesis less (by omega)) _
                    returns
                  change buf.length - (w.taken ++ bytes).length = _
                  rw [List.length_append]
                  omega
            | wantRead =>
                exact wants rfl rfl (by decide) (by decide) returns
            | wantWrite =>
                exact wants rfl rfl (by decide) (by decide) returns
            | timeout => exact stops rfl returns
            | failed => exact stops rfl returns

end

/-- What a write comes to: the bytes the library has accepted are the first
ones of the buffer, and without an error they are counted, unless the timer
expires at the test of the inner loop behind an answer, which is then added once
more.  There is an error only if the library answers with one. -/
structure WritesPrefix (buf : List UInt8) (left : Nat)
    (answers : List SslAnswer) (result : Result) : Prop where
  taken : result.bytes <+: buf
  told : ∀ sent, result.ret = .ok sent →
    (sent = result.bytes.length ↔
      ∀ rest, left = rest + 1 → ¬ExpiresInside buf.length rest answers False)
  error : ∀ error, result.ret = .error error →
    ∃ answer ∈ answers, answer.goesOn = false

theorem halTlsWrite_writesPrefix {buf : List UInt8}
    (small : buf.length < 2 ^ 31) {left : Nat} {answers : List SslAnswer}
    {result : Result} (returns : halTlsWrite buf left answers = some result) :
    WritesPrefix buf left answers result := by
  obtain ⟨⟨w, errorFlag⟩, loops, rfl⟩ := Option.map_eq_some_iff.mp returns
  have start : (⟨0, 0, []⟩ : Writing).Counts buf :=
    ⟨rfl, List.nil_prefix, by decide⟩
  have ends : w.Ends buf answers
      (∃ rest, left = rest + 1 ∧ ExpiresInside buf.length rest answers False)
      errorFlag := by
    have nothing {inside : Prop} (outside : ¬inside)
        (done : some (⟨0, 0, []⟩, false) = some (w, errorFlag)) :
        w.Ends buf answers inside errorFlag := by
      obtain ⟨rfl, rfl⟩ := Prod.mk.inj (Option.some.inj done)
      refine ⟨List.nil_prefix, fun _ => iff_of_true rfl outside,
        fun failed => ?_⟩
      cases failed
    cases left with
    | zero =>
        refine nothing ?_ loops
        rintro ⟨rest, none, -⟩
        cases none
    | succ left =>
        rw [writeLoop] at loops
        split at loops
        · rename_i room
          have ends := writeLoop_inside small w errorFlag left start room loops
          refine ⟨ends.taken, fun fine => (ends.told fine).trans ?_,
            ends.failed⟩
          simp only [List.length_nil, Nat.sub_zero, ne_eq, not_true_eq_false]
          refine not_congr ⟨fun inside => ⟨left, rfl, inside⟩, ?_⟩
          rintro ⟨rest, same, inside⟩
          obtain rfl := Nat.succ.inj same
          exact inside
        · rename_i empty
          refine nothing ?_ loops
          rintro ⟨rest, -, before, -, -, -, less, -⟩
          exact absurd (Nat.zero_lt_of_lt less) empty
  refine ⟨ends.taken, fun sent ok => ?_, fun error failed => ?_⟩
  · dsimp only at ok ⊢
    split at ok
    · cases ok
    · rename_i fine
      obtain rfl := Except.ok.inj ok
      rw [ends.told (Bool.eq_false_iff.mpr fine), not_exists]
      simp only [not_and]
  · dsimp only at failed
    split at failed
    · rename_i fails
      exact ends.failed fails
    · cases failed

/-! ## What a read hands on -/

/-- The library moves bytes, if there are any. -/
def SslAnswer.moves : SslAnswer → Bool
  | .bytes _ => true
  | _ => false

/-- How the loop ends that starts with some bytes in the buffer.  Where it
fails, the bytes that it has moved before stay in the buffer, and there are none
only if no answer before the last one has moved any. -/
structure Reading.Ends (r : Reading) (len left : Nat)
    (answers : List SslAnswer) (got waiting : List UInt8) (failed : Bool) :
    Prop where
  all : r.got ++ r.waiting = waiting
  within : r.got.length ≤ len
  short : failed = false → r.got.length < len → left < answers.length
  failing : failed = true → ∃ before last rest,
    answers = before ++ last :: rest ∧
      (last = .failed ∨ last.moves = true) ∧
      (r.got = got ↔ ∀ answer ∈ before, answer.moves = false)
  grows : got.length ≤ r.got.length

/-- One more answer in front. -/
theorem Reading.Ends.cons {r : Reading} {len left : Nat}
    {answers : List SslAnswer} {got got' waiting : List UInt8} {failed : Bool}
    (ends : r.Ends len left answers got' waiting failed) (answer : SslAnswer)
    (grown : got.length ≤ got'.length)
    (same : answer.moves = false → got' = got)
    (more : answer.moves = true → got.length < got'.length) :
    r.Ends len (left + 1) (answer :: answers) got waiting failed := by
  refine ⟨ends.all, ends.within, fun fine small => ?_, fun fails => ?_,
    Nat.le_trans grown ends.grows⟩
  · exact Nat.succ_lt_succ (ends.short fine small)
  · obtain ⟨before, last, rest, rfl, stops, kept⟩ := ends.failing fails
    refine ⟨answer :: before, last, rest, rfl, stops, ?_⟩
    rw [List.forall_mem_cons]
    cases moved : answer.moves with
    | false =>
        rw [same moved] at kept
        simpa using kept
    | true =>
        have grows := ends.grows
        have longer := more moved
        refine iff_of_false (fun equal => ?_) fun both => ?_
        · rw [equal] at grows
          omega
        · cases both.1

/-- What one turn does: it fails or moves nothing, or moves some bytes. -/
theorem readTurn_outcome {len : Nat} {waiting : List UInt8} {r : Reading}
    (all : r.got ++ r.waiting = waiting) (room : r.got.length < len)
    (answer : SslAnswer) :
    let (next, failed) := readTurn len answer r
    next.got ++ next.waiting = waiting ∧ next.got.length ≤ len ∧
      (failed = true →
        next = r ∧ (answer = .failed ∨ answer.moves = true)) ∧
      (failed = false → if answer.moves = true
        then r.got.length < next.got.length else next = r) := by
  cases answer with
  | bytes count =>
      unfold readTurn
      dsimp only
      split
      · exact ⟨all, Nat.le_of_lt room, fun _ => ⟨rfl, .inr rfl⟩,
          fun fine => Bool.noConfusion fine⟩
      · rename_i nonempty
        have moves := List.length_pos_of_ne_nil nonempty
        refine ⟨?_, ?_, fun fails => Bool.noConfusion fails, fun _ => ?_⟩
        · exact (ByteStream.append_take_append_drop ..).trans all
        · dsimp only
          rw [List.length_append, List.length_take]
          omega
        · rw [SslAnswer.moves, if_pos rfl]
          dsimp only
          rw [List.length_append]
          omega
  | wantRead | wantWrite | timeout =>
      exact ⟨all, Nat.le_of_lt room, fun fails => Bool.noConfusion fails,
        fun _ => rfl⟩
  | failed =>
      exact ⟨all, Nat.le_of_lt room, fun _ => ⟨rfl, .inl rfl⟩,
        fun fine => Bool.noConfusion fine⟩

theorem Reading.Ends.full {len left : Nat} {answers : List SslAnswer}
    {waiting : List UInt8} {r r' : Reading} {failed : Bool}
    (all : r.got ++ r.waiting = waiting) (within : r.got.length ≤ len)
    (full : ¬r.got.length < len)
    (done : some (r, false) = some (r', failed)) :
    r'.Ends len left answers r.got waiting failed := by
  obtain ⟨rfl, rfl⟩ := Prod.mk.inj (Option.some.inj done)
  refine ⟨all, within, fun _ short => absurd short full, fun fails => ?_,
    Nat.le_refl _⟩
  cases fails

theorem readLoop_ends {len left : Nat} {answers : List SslAnswer}
    {waiting : List UInt8} {r r' : Reading} {failed : Bool}
    (all : r.got ++ r.waiting = waiting) (within : r.got.length ≤ len)
    (returns : readLoop len left answers r = some (r', failed)) :
    r'.Ends len left answers r.got waiting failed := by
  induction answers generalizing left r with
  | nil =>
      rw [readLoop] at returns
      split at returns
      · cases returns
      · rename_i done
        exact .full all within done returns
  | cons answer answers inductionHypothesis =>
      rw [readLoop] at returns
      split at returns
      · rename_i room
        have outcome := readTurn_outcome all room answer
        generalize readTurn len answer r = after at returns outcome
        obtain ⟨next, fails⟩ := after
        obtain ⟨all', within', stops, moves⟩ := outcome
        cases fails with
        | true =>
            obtain ⟨rfl, last⟩ := stops rfl
            obtain ⟨rfl, rfl⟩ := Prod.mk.inj (Option.some.inj returns)
            refine ⟨all, within, fun fine => ?_, fun _ => ?_, Nat.le_refl _⟩
            · cases fine
            · exact ⟨[], answer, answers, rfl, last,
                iff_of_true rfl (List.forall_mem_nil _)⟩
        | false =>
            have moves := moves rfl
            cases left with
            | zero =>
                obtain ⟨rfl, rfl⟩ := Prod.mk.inj (Option.some.inj returns)
                refine ⟨all', within', fun _ _ => Nat.succ_pos _,
                  fun fails => ?_, ?_⟩
                · cases fails
                · split at moves
                  · exact Nat.le_of_lt moves
                  · exact Nat.le_of_eq (congrArg (·.got.length) moves.symm)
            | succ left =>
                have ends := inductionHypothesis all' within' returns
                cases moved : answer.moves with
                | false =>
                    rw [moved] at moves
                    obtain rfl : next = r := moves
                    refine ends.cons answer (Nat.le_refl _) (fun _ => rfl) ?_
                    intro contra
                    exact absurd (moved.symm.trans contra) (by decide)
                | true =>
                    rw [moved] at moves
                    have grown : r.got.length < next.got.length := moves
                    refine ends.cons answer (Nat.le_of_lt grown) ?_
                      fun _ => grown
                    intro contra
                    exact absurd (moved.symm.trans contra) (by decide)
      · rename_i done
        exact .full all within done returns

/-- What a read comes to: the bytes in the buffer are those that waited first,
and they fit.  Without an error they are counted, and there are fewer than there
is room for only if the timer has expired.  An error has no bytes with it only
if the library moved none before. -/
structure ReadsPrefix (len left : Nat) (answers : List SslAnswer)
    (result : Result) : Prop where
  within : result.bytes.length ≤ len
  counted : ∀ got, result.ret = .ok got → len < 2 ^ 31 →
    got = result.bytes.length
  short : ∀ got, result.ret = .ok got → result.bytes.length < len →
    left < answers.length
  error : ∀ error, result.ret = .error error → ∃ before last rest,
    answers = before ++ last :: rest ∧
      (last = .failed ∨ last.moves = true) ∧
      (result.bytes = [] ↔ ∀ answer ∈ before, answer.moves = false)

theorem halTlsRead_readsPrefix {len left : Nat} {answers : List SslAnswer}
    {waiting : List UInt8} {result : Result} {behind : List UInt8}
    (returns : halTlsRead len left answers waiting = some (result, behind)) :
    result.bytes ++ behind = waiting ∧
      ReadsPrefix len left answers result := by
  obtain ⟨⟨r, failed⟩, loops, same⟩ := Option.map_eq_some_iff.mp returns
  obtain ⟨rfl, rfl⟩ := Prod.mk.inj same
  have none : (⟨[], waiting⟩ : Reading).got ++ waiting = waiting := rfl
  have ends := readLoop_ends none (Nat.zero_le _) loops
  have within := ends.within
  refine ⟨ends.all, within, fun got ok small => ?_, fun got ok short => ?_,
    fun error fails => ?_⟩
  · dsimp only at ok ⊢
    split at ok
    · cases ok
    · rw [bmod_of_lt (by omega)] at ok
      exact (Except.ok.inj ok).symm
  · dsimp only at ok
    split at ok
    · cases ok
    · rename_i fine
      exact ends.short (Bool.eq_false_iff.mpr fine) short
  · dsimp only at fails
    split at fails
    · rename_i failed
      exact ends.failing failed
    · cases fails

/-! ## A stream between two ends -/

theorem writeLoop_returns (buf : List UInt8) {left : Nat}
    {answers : List SslAnswer} (enough : left ≤ answers.length)
    (inside : Bool) (w : Writing) :
    (writeLoop buf left inside answers w).isSome := by
  induction left generalizing inside answers w with
  | zero => cases inside <;> rfl
  | succ left inductionHypothesis =>
      have fewer : left ≤ answers.length := Nat.le_of_succ_le enough
      cases inside with
      | false =>
          rw [writeLoop]
          split
          · exact inductionHypothesis fewer true w
          · rfl
      | true =>
          cases answers with
          | nil => cases enough
          | cons answer answers =>
              have others : left ≤ answers.length :=
                Nat.le_of_succ_le_succ enough
              cases answer with
              | bytes count =>
                  rw [writeLoop]
                  split
                  · rfl
                  · exact inductionHypothesis others false _
              | wantRead => exact inductionHypothesis others true _
              | wantWrite => exact inductionHypothesis others true _
              | timeout => rfl
              | failed => rfl

theorem readLoop_returns (len : Nat) {left : Nat} {answers : List SslAnswer}
    (enough : left < answers.length) (r : Reading) :
    (readLoop len left answers r).isSome := by
  induction answers generalizing left r with
  | nil => cases enough
  | cons answer answers inductionHypothesis =>
      rw [readLoop]
      split
      · generalize readTurn len answer r = after
        obtain ⟨next, failed⟩ := after
        cases failed with
        | true => rfl
        | false =>
            cases left with
            | zero => rfl
            | succ left =>
                exact inductionHypothesis (Nat.lt_of_succ_lt_succ enough) next
      · rfl

/-- A call of `HAL_TLS_Write`, with the tests before its timer has expired and
the answers of the library. -/
structure Write where
  buf : List UInt8
  left : Nat
  answers : List SslAnswer

/-- A call of `HAL_TLS_Read`. -/
structure Read where
  len : Nat
  left : Nat
  answers : List SslAnswer

/-- The two ends of a connection. -/
def ends : Ends Write Read (Except NetError Int) UInt8 where
  write call := halTlsWrite call.buf call.left call.answers
  read call waiting := halTlsRead call.len call.left call.answers waiting

def Write.Tells (call : Write) (result : Result) : Prop :=
  call.buf.length < 2 ^ 31 →
    WritesPrefix call.buf call.left call.answers result

def Read.Tells (call : Read) (result : Result) : Prop :=
  ReadsPrefix call.len call.left call.answers result

theorem ends_sound : ends.Sound Write.Tells Read.Tells :=
  ⟨fun returns small => halTlsWrite_writesPrefix small returns,
    fun returns => halTlsRead_readsPrefix returns⟩

/-- The library answers until the timer has expired. -/
def Answered : Write ⊕ Read → Prop
  | .inl call => call.left ≤ call.answers.length
  | .inr call => call.left < call.answers.length

theorem perform_of_answered {call : Write ⊕ Read} (answered : Answered call)
    (t : Traffic Write Read (Except NetError Int) UInt8) :
    (ends.perform t call).isSome := by
  cases call with
  | inl call =>
      change (((writeLoop call.buf _ _ _ _).map _).map _).isSome
      rw [Option.isSome_map, Option.isSome_map]
      exact writeLoop_returns call.buf answered false _
  | inr call =>
      change (((readLoop call.len _ _ _).map _).map _).isSome
      rw [Option.isSome_map, Option.isSome_map]
      exact readLoop_returns call.len answered _

/-- Calls of `HAL_TLS_Write` at one end and of `HAL_TLS_Read` at the other, in
any order and with whatever the library answers: the bytes that are read are
those that were accepted, in their order, up to the ones on their way.  What a
write tells is their number unless its timer expires inside behind an answer,
and a read that fails says nothing of the bytes it has got before. -/
theorem tlsRun_inOrder (calls : List (Write ⊕ Read)) :
    (∀ t, ends.run .none calls = some t → t.InOrder Write.Tells Read.Tells) ∧
      ((∀ call ∈ calls, Answered call) → (ends.run .none calls).isSome) :=
  ⟨fun _ runs => ends_sound.run_none runs,
    fun answered => Ends.isSome_run
      (fun call mem => perform_of_answered (answered call mem)) .none⟩

/-- A write whose timer expires inside behind two bytes, and a read that fails
behind them. -/
def expiringCalls : List (Write ⊕ Read) :=
  [.inl ⟨[7, 8, 9], 4, [.wantWrite, .bytes 2, .bytes 1, .bytes 1]⟩,
    .inr ⟨4, 9, [.bytes 2, .failed]⟩]

theorem tlsRun_inOrder_expiringCalls :
    ∃ t, ends.run .none expiringCalls = some t ∧
      passed t.read = [7, 8] ∧ t.waiting = [] ∧
      t.InOrder Write.Tells Read.Tells := by
  have runs : (ends.run .none expiringCalls).isSome := rfl
  obtain ⟨t, finish⟩ := Option.isSome_iff_exists.mp runs
  obtain rfl := Option.some.inj finish
  exact ⟨_, rfl, rfl, rfl, (tlsRun_inOrder expiringCalls).1 _ rfl⟩

end Tls
end UIoT
