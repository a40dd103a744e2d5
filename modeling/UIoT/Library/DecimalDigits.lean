import Mathlib.Data.Nat.Basic
import Mathlib.Tactic.IntervalCases

/-!
# Decimal digits in bytes

The digits a number is printed with: each is the byte of a digit, there is at
least one, the first is zero only for the number zero, and reading them gives
the number back.
-/

namespace DecimalDigits

/-- The byte of a digit. -/
def digit (value : Nat) : UInt8 := UInt8.ofNat (48 + value)

/-- The digits of a number. -/
def digits (number : Nat) : List UInt8 :=
  (Nat.toDigits 10 number).map fun char => UInt8.ofNat char.toNat

/-- The number digits stand for, behind those of another number. -/
def value (before : Nat) (bytes : List UInt8) : Nat :=
  bytes.foldl (fun value byte => value * 10 + (byte.toNat - 48)) before

theorem digit_toNat {number : Nat} (small : number < 10) :
    (digit number).toNat = 48 + number := by
  unfold digit
  rw [UInt8.toNat_ofNat']
  exact Nat.mod_eq_of_lt (by omega)

theorem digitChar_byte {number : Nat} (small : number < 10) :
    UInt8.ofNat number.digitChar.toNat = digit number := by
  interval_cases number <;> rfl

theorem digits_of_lt {number : Nat} (small : number < 10) :
    digits number = [digit number] := by
  unfold digits
  rw [Nat.toDigits_of_lt_base small, List.map_singleton, digitChar_byte small]

/-- The last digit is split off. -/
theorem digits_of_ge {number : Nat} (large : 10 ≤ number) :
    digits number = digits (number / 10) ++ [digit (number % 10)] := by
  have small : number % 10 < 10 := Nat.mod_lt _ (by decide)
  unfold digits
  rw [Nat.toDigits_of_base_le (by decide) large, List.map_append,
    List.map_singleton, digitChar_byte small]

theorem digits_ne_nil (number : Nat) : digits number ≠ [] := by
  unfold digits
  rw [Ne, List.map_eq_nil_iff]
  exact Nat.toDigits_ne_nil

/-- A property of all digit bytes holds of the digits of a number. -/
theorem digits_forall {good : UInt8 → Prop}
    (each : ∀ value < 10, good (digit value)) (number : Nat) :
    ∀ byte ∈ digits number, good byte := by
  induction number using Nat.strong_induction_on with
  | _ number inductionHypothesis =>
      by_cases small : number < 10
      · rw [digits_of_lt small]
        exact List.forall_mem_singleton.mpr (each number small)
      · rw [digits_of_ge (Nat.not_lt.mp small)]
        intro byte mem
        rcases List.mem_append.mp mem with front | last
        · exact inductionHypothesis (number / 10) (by omega) byte front
        · rw [List.mem_singleton.mp last]
          exact each _ (Nat.mod_lt _ (by decide))

theorem digits_range (number : Nat) :
    ∀ byte ∈ digits number, 48 ≤ byte ∧ byte ≤ 57 := by
  refine digits_forall (fun value small => ?_) number
  interval_cases value <;> decide

/-- Only zero is printed with a zero in front. -/
theorem digits_head {number : Nat} (nonzero : number ≠ 0) :
    (digits number).head? ≠ some 48 := by
  induction number using Nat.strong_induction_on with
  | _ number inductionHypothesis =>
      by_cases small : number < 10
      · rw [digits_of_lt small, List.head?_cons]
        intro same
        have zero := congrArg UInt8.toNat (Option.some.inj same)
        rw [digit_toNat small] at zero
        exact nonzero (by simpa using zero)
      · have large := Nat.not_lt.mp small
        have front := inductionHypothesis (number / 10) (by omega) (by omega)
        obtain ⟨first, rest, begins⟩ :=
          List.exists_cons_of_ne_nil (digits_ne_nil (number / 10))
        rw [begins] at front
        rw [digits_of_ge large, begins]
        exact front

/-- A number below a power of ten has as many digits at most. -/
theorem length_digits_le {number count : Nat} (positive : 0 < count)
    (small : number < 10 ^ count) : (digits number).length ≤ count := by
  unfold digits
  rw [List.length_map]
  exact (Nat.length_toDigits_le_iff (by decide) positive).mpr small

/-- A number of that many digits at most is below the power of ten. -/
theorem lt_of_length_digits_le {number count : Nat} (positive : 0 < count)
    (few : (digits number).length ≤ count) : number < 10 ^ count := by
  unfold digits at few
  rw [List.length_map] at few
  exact (Nat.length_toDigits_le_iff (by decide) positive).mp few

/-- A smaller number has no more digits. -/
theorem length_digits_mono {smaller larger : Nat} (le : smaller ≤ larger) :
    (digits smaller).length ≤ (digits larger).length := by
  have positive : 0 < (digits larger).length :=
    List.length_pos_iff.mpr (digits_ne_nil larger)
  exact length_digits_le positive
    (Nat.lt_of_le_of_lt le (lt_of_length_digits_le positive (Nat.le_refl _)))

theorem value_append (before : Nat) (first second : List UInt8) :
    value before (first ++ second) = value (value before first) second :=
  List.foldl_append

/-- Reading the digits of a number gives the number. -/
theorem value_digits (number : Nat) : value 0 (digits number) = number := by
  induction number using Nat.strong_induction_on with
  | _ number inductionHypothesis =>
      by_cases small : number < 10
      · rw [digits_of_lt small]
        change 0 * 10 + ((digit number).toNat - 48) = number
        rw [digit_toNat small]
        omega
      · have last : number % 10 < 10 := Nat.mod_lt _ (by decide)
        rw [digits_of_ge (Nat.not_lt.mp small), value_append,
          inductionHypothesis (number / 10) (by omega)]
        change number / 10 * 10 + ((digit (number % 10)).toNat - 48) = number
        rw [digit_toNat last]
        omega

end DecimalDigits
