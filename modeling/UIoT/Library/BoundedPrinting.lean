import Mathlib.Algebra.Group.Nat.Defs
import Mathlib.Data.List.Basic

/-!
# Printing into an array piece by piece

`snprintf` takes a size and answers the length of the whole text, whether or not
it had room.  A text is built in an array by printing piece behind piece, the
answers being counted off the size that remains.  As long as the text in front
of a piece is no longer than the array the piece is printed inside of it, and
the array then holds the beginning of the text.
-/

namespace BoundedPrinting

/-! ## Calls -/

/-- A call of `snprintf`: where in the array it prints, the size it is given,
and what it formats. -/
structure Print where
  offset : Nat
  size : Int
  formatted : List UInt8
  deriving DecidableEq

/-- The size is not negative and does not reach beyond the array. -/
def Print.Inside (bound : Nat) (print : Print) : Prop :=
  0 ≤ print.size ∧ print.offset + print.size ≤ bound

/-- Nothing of the text is cut off. -/
def Print.Whole (print : Print) : Prop :=
  print.formatted.length < print.size

instance (bound : Nat) (print : Print) : Decidable (print.Inside bound) :=
  inferInstanceAs (Decidable (_ ∧ _))

instance (print : Print) : Decidable print.Whole :=
  inferInstanceAs (Decidable (_ < _))

/-- The string that is then in the array, where it held another one before.  A
negative size is as good as none. -/
def Print.written (text : List UInt8) (print : Print) : List UInt8 :=
  if print.size = 0 then text
  else if print.size < 0 then text.take print.offset ++ print.formatted
  else
    text.take print.offset ++ print.formatted.take (print.size.toNat - 1)

/-- The answer: the length of the text, if that is an `int`. -/
def Print.result (print : Print) : Int :=
  if print.formatted.length < 2 ^ 31 then print.formatted.length else -1

/-! ## Texts in pieces -/

/-- The array holds the beginning of a text that was printed piece by piece, and
the size that remains has been counted down; a length that is no `int` has
counted as minus one. -/
structure Filled (bound : Nat) (whole text : List UInt8)
    (writeSize remainSize : Int) : Prop where
  text_eq : text = whole.take (bound - 1)
  counted :
    (whole.length < 2 ^ 31 ∧ 0 ≤ writeSize ∧
        remainSize = (bound : Int) - whole.length) ∨
      (2 ^ 31 ≤ whole.length ∧ writeSize < 0 ∧ remainSize = bound + 1)

section

variable {bound : Nat} {whole text : List UInt8} {writeSize remainSize : Int}

/-- The first piece. -/
theorem filled_first (positive : 0 < bound) (text formatted : List UInt8) :
    let print : Print := ⟨0, bound, formatted⟩
    Filled bound formatted (print.written text) print.result
      (bound - print.result) := by
  intro print
  constructor
  · simp only [Print.written, print]
    rw [if_neg (by omega), if_neg (by omega), Int.toNat_natCast,
      List.take_zero, List.nil_append]
  · simp only [Print.result, print]
    split <;> omega

/-- The next piece is printed inside the array exactly if all that is in front
of it has at most its length. -/
theorem Filled.inside_iff
    (filled : Filled bound whole text writeSize remainSize)
    (positive : 0 < bound) (small : bound < 2 ^ 31) (piece : List UInt8) :
    Print.Inside bound ⟨text.length, remainSize, piece⟩ ↔
      whole.length ≤ bound := by
  have length_eq := congrArg List.length filled.text_eq
  rw [List.length_take] at length_eq
  simp only [Print.Inside]
  rcases filled.counted with ⟨short, -, remain⟩ | ⟨long, -, remain⟩
  · omega
  · omega

/-- The next piece is whole exactly if with it the text has room. -/
theorem Filled.whole_iff (filled : Filled bound whole text writeSize remainSize)
    (small : bound < 2 ^ 31) (front : whole.length ≤ bound)
    (offset : Nat) (piece : List UInt8) :
    Print.Whole ⟨offset, remainSize, piece⟩ ↔
      (whole ++ piece).length < bound := by
  simp only [Print.Whole, List.length_append]
  rcases filled.counted with ⟨short, -, remain⟩ | ⟨long, -, remain⟩
  · omega
  · omega

/-- A piece printed inside the array fills it further. -/
theorem Filled.next (filled : Filled bound whole text writeSize remainSize)
    (front : whole.length ≤ bound) {piece : List UInt8}
    (short : bound + piece.length < 2 ^ 31) :
    let print : Print := ⟨text.length, remainSize, piece⟩
    Filled bound (whole ++ piece) (print.written text) print.result
      (remainSize - print.result) := by
  intro print
  have length_eq := congrArg List.length filled.text_eq
  rw [List.length_take] at length_eq
  have remain : remainSize = (bound : Int) - whole.length := by
    rcases filled.counted with ⟨-, -, remain⟩ | ⟨long, -, -⟩
    · exact remain
    · omega
  constructor
  · simp only [Print.written, print, List.take_length]
    by_cases full : whole.length = bound
    · rw [if_pos (by omega), filled.text_eq, List.take_append_of_le_length]
      omega
    · rw [if_neg (by omega), if_neg (by omega), filled.text_eq,
        List.take_append, List.take_of_length_le (by omega)]
      congr 2
      omega
  · simp only [Print.result, print, List.length_append]
    rw [if_pos (by omega)]
    omega

/-- The size that remains tells whether the text is no longer than the array. -/
theorem Filled.accepted_iff
    (filled : Filled bound whole text writeSize remainSize)
    (small : bound < 2 ^ 31) :
    ¬(writeSize < 0 ∨ remainSize < 0) ↔ whole.length ≤ bound := by
  rcases filled.counted with ⟨short, wrote, remain⟩ | ⟨long, wrote, remain⟩
  · omega
  · omega

end

/-! ## Texts in one piece -/

theorem inside_once (bound : Nat) (formatted : List UInt8) :
    Print.Inside bound ⟨0, bound, formatted⟩ := by
  simp [Print.Inside]

theorem whole_once_iff (bound : Nat) (formatted : List UInt8) :
    Print.Whole ⟨0, bound, formatted⟩ ↔ formatted.length < bound := by
  simp [Print.Whole]

theorem result_nonneg_iff (offset : Nat) (size : Int)
    (formatted : List UInt8) :
    ¬Print.result ⟨offset, size, formatted⟩ < 0 ↔
      formatted.length < 2 ^ 31 := by
  unfold Print.result
  dsimp only
  split <;> omega

end BoundedPrinting
