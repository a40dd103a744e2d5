import Mathlib.Algebra.Field.Rat
import UIoT.Library.DecimalDigits
import UIoT.Library.JsonSyntax

/-!
# The value of a JSON number

A number token stands for a rational number.  Without a fraction and an exponent
that is the integer its digits are read as.
-/

namespace JsonSyntax

open DecimalDigits (value)

/-- The number that is read from digits. -/
def Digits.number (digits : Digits) : Nat := value 0 digits.bytes

/-- What a fraction adds. -/
def fractionValue : Option Digits → ℚ
  | none => 0
  | some digits => digits.number / 10 ^ digits.bytes.length

/-- The exponent as an integer. -/
def exponentValue : Option Exponent → Int
  | none => 0
  | some exponent =>
      match exponent.sign with
      | some true => -exponent.digits.number
      | _ => exponent.digits.number

/-- The rational number a token stands for. -/
def Number.value (number : Number) : ℚ :=
  (if number.negative then -1 else 1) *
    (number.whole.number + fractionValue number.fraction) *
      10 ^ exponentValue number.exponent

/-- The integer in front of the fraction, with its sign. -/
def Number.signed (number : Number) : Int :=
  if number.negative then -number.whole.number else number.whole.number

/-- Without a fraction and an exponent the value is an integer. -/
theorem Number.value_of_integer {number : Number}
    (fraction : number.fraction = none) (exponent : number.exponent = none) :
    number.value = number.signed := by
  unfold value signed
  rw [fraction, exponent]
  cases number.negative <;> simp [fractionValue, exponentValue]

/-- Without a fraction and an exponent a number is its sign and digits. -/
theorem Number.bytes_of_integer {number : Number}
    (fraction : number.fraction = none) (exponent : number.exponent = none) :
    number.bytes =
      (if number.negative then [45] else []) ++ number.whole.bytes := by
  unfold bytes mantissa
  rw [fraction, exponent]
  simp [fractionText, exponentText]

end JsonSyntax
