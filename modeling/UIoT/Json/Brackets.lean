import UIoT.Json.Enumeration
import UIoT.Library.JsonPaths

/-!
# Values without marks in their strings

Where no string in a value contains an opening or closing mark, the marks of the
value are those of its arrays and objects, and every array and object is passed
in whole.
-/

namespace UIoT
namespace Json

open JsonSyntax

/-! ## Closed texts -/

theorem ClosedInside.of_absent {opening closing : UInt8} {text : List UInt8}
    (opens : opening ∉ text) (closes : closing ∉ text) :
    ClosedInside opening closing 0 text where
  open_inside := by
    intro front isPrefix
    rw [List.count_eq_zero.mpr fun mem => closes (isPrefix.mem mem)]
    exact Nat.zero_le _
  balanced := by
    rw [List.count_eq_zero.mpr closes, List.count_eq_zero.mpr opens]

theorem ClosedInside.append {opening closing : UInt8}
    {first second : List UInt8} (left : ClosedInside opening closing 0 first)
    (right : ClosedInside opening closing 0 second) :
    ClosedInside opening closing 0 (first ++ second) where
  open_inside := by
    intro front isPrefix
    rcases List.prefix_or_prefix_of_prefix isPrefix
        (List.prefix_append first second) with within | ⟨more, rfl⟩
    · exact left.open_inside front within
    · rw [List.prefix_append_right_inj] at isPrefix
      have before := left.balanced
      have behind := right.open_inside more isPrefix
      rw [List.count_append, List.count_append]
      omega
  balanced := by
    have before := left.balanced
    have behind := right.balanced
    rw [List.count_append, List.count_append]
    omega

/-- A closed text between its marks is closed. -/
theorem ClosedInside.marked {opening closing : UInt8}
    (different : opening ≠ closing) {inner : List UInt8}
    (closed : ClosedInside opening closing 0 inner) :
    ClosedInside opening closing 0 (opening :: (inner ++ [closing])) := by
  obtain ⟨within, balanced⟩ := closed.enclosed different
  refine ⟨?_, by omega⟩
  intro front isPrefix
  by_cases empty : front = []
  · rw [empty]
    exact Nat.le_refl _
  by_cases whole : front = opening :: (inner ++ [closing])
  · rw [whole]
    omega
  · have fewer := within front isPrefix empty whole
    omega

/-! ## Closed values -/

/-- A kind of marks that the scanner counts. -/
def Marks (opening closing : UInt8) : Prop :=
  opening = 91 ∧ closing = 93 ∨ opening = 123 ∧ closing = 125

/-- No string in the list contains one of the marks. -/
def Unmarked (opening closing : UInt8) (strings : List (List StringItem)) :
    Prop :=
  ∀ items ∈ strings, opening ∉ rawText items ∧ closing ∉ rawText items

/-- A byte that is none of the four marks. -/
def NoMark (byte : UInt8) : Prop :=
  byte ≠ 91 ∧ byte ≠ 93 ∧ byte ≠ 123 ∧ byte ≠ 125

instance (byte : UInt8) : Decidable (NoMark byte) :=
  inferInstanceAs (Decidable (_ ∧ _))

theorem ClosedInside.of_noMark {opening closing : UInt8}
    (marks : Marks opening closing) {text : List UInt8}
    (plain : ∀ byte ∈ text, NoMark byte) :
    ClosedInside opening closing 0 text := by
  rcases marks with ⟨rfl, rfl⟩ | ⟨rfl, rfl⟩
  · exact .of_absent (fun mem => (plain _ mem).1 rfl)
      fun mem => (plain _ mem).2.1 rfl
  · exact .of_absent (fun mem => (plain _ mem).2.2.1 rfl)
      fun mem => (plain _ mem).2.2.2 rfl

theorem Blanks.noMark (blanks : Blanks) :
    ∀ byte ∈ blanks.bytes, NoMark byte := by
  intro byte mem
  rcases blanks.blank byte mem with rfl | rfl | rfl | rfl <;> decide

theorem Digits.noMark (digits : Digits) :
    ∀ byte ∈ digits.bytes, NoMark byte := by
  intro byte mem
  obtain ⟨-, high⟩ := digits.digit byte mem
  refine ⟨?_, ?_, ?_, ?_⟩ <;> rintro rfl <;> exact absurd high (by decide)

theorem Number.noMark (number : Number) :
    ∀ byte ∈ number.bytes, NoMark byte := by
  obtain ⟨negative, whole, -, fraction, exponent⟩ := number
  intro byte mem
  simp only [Number.bytes, Number.mantissa, List.mem_append] at mem
  rcases mem with (sign | digit | fractional) | exponential
  · cases negative with
    | true =>
        obtain rfl := List.mem_singleton.mp sign
        decide
    | false => cases sign
  · exact Digits.noMark whole byte digit
  · cases fraction with
    | none => cases fractional
    | some decimals =>
        rcases List.mem_cons.mp fractional with rfl | digit
        · decide
        · exact Digits.noMark decimals byte digit
  · cases exponent with
    | none => cases exponential
    | some exponent =>
        obtain ⟨capital, sign, digits⟩ := exponent
        rcases List.mem_cons.mp exponential with same | mem
        · rw [same]
          split <;> decide
        rcases List.mem_append.mp mem with mem | mem
        · rcases sign with - | - | - <;> simp at mem <;> subst mem <;> decide
        · exact Digits.noMark digits byte mem

section Closed

variable {opening closing : UInt8} (marks : Marks opening closing)
include marks

theorem closed_blanks (blanks : Blanks) :
    ClosedInside opening closing 0 blanks.bytes :=
  .of_noMark marks (Blanks.noMark blanks)

theorem closed_byte (byte : UInt8) (plain : NoMark byte) :
    ClosedInside opening closing 0 [byte] :=
  .of_noMark marks (by simpa using plain)

/-- A closed text between marks of either kind is closed. -/
theorem closed_between {first last : UInt8} (pair : Marks first last)
    {inner : List UInt8} (closed : ClosedInside opening closing 0 inner) :
    ClosedInside opening closing 0 (first :: (inner ++ [last])) := by
  have other : ∀ {byte : UInt8}, byte ≠ opening → byte ≠ closing →
      ClosedInside opening closing 0 [byte] := fun opens closes =>
    .of_absent (by simpa using opens.symm) (by simpa using closes.symm)
  rcases marks with ⟨rfl, rfl⟩ | ⟨rfl, rfl⟩
  · rcases pair with ⟨rfl, rfl⟩ | ⟨rfl, rfl⟩
    · exact closed.marked (by decide)
    · exact (other (by decide) (by decide)).append
        (closed.append (other (by decide) (by decide)))
  · rcases pair with ⟨rfl, rfl⟩ | ⟨rfl, rfl⟩
    · exact (other (by decide) (by decide)).append
        (closed.append (other (by decide) (by decide)))
    · exact closed.marked (by decide)

/-- A string between its quotes. -/
theorem closed_string {items : List StringItem}
    (unmarked : opening ∉ rawText items ∧ closing ∉ rawText items) :
    ClosedInside opening closing 0 (34 :: (rawText items ++ [34])) := by
  have quote := closed_byte marks 34 (by decide)
  exact quote.append ((ClosedInside.of_absent unmarked.1 unmarked.2).append
    quote)

mutual

/-- The marks of a value are closed in it. -/
theorem closed_value : (value : Value) →
    Unmarked opening closing value.strings →
    ClosedInside opening closing 0 value.text
  | .string items, unmarked => by
      rw [Value.text]
      exact closed_string marks (unmarked items (by simp [Value.strings]))
  | .number number, _ => by
      rw [Value.text]
      exact .of_noMark marks (Number.noMark number)
  | .literal literal, _ => by
      rw [Value.text]
      exact .of_noMark marks (by cases literal <;> decide)
  | .array gap elements, unmarked => by
      rw [Value.text]
      exact closed_between marks (.inl ⟨rfl, rfl⟩)
        ((closed_blanks marks gap).append (closed_elements elements
          (by simpa [Value.strings] using unmarked)))
  | .object gap members, unmarked => by
      rw [Value.text]
      exact closed_between marks (.inr ⟨rfl, rfl⟩)
        ((closed_blanks marks gap).append (closed_members members
          (by simpa [Value.strings] using unmarked)))

theorem closed_elements : (elements : List (JsonSyntax.Element Value)) →
    Unmarked opening closing (elementsStrings elements) →
    ClosedInside opening closing 0 (elementsText elements)
  | [], _ => by
      rw [elementsText]
      exact .nil opening closing
  | [element], unmarked => by
      rw [elementsText]
      exact closed_element element fun items mem =>
        unmarked items (by simp [elementsStrings, mem])
  | element :: next :: rest, unmarked => by
      rw [elementsText]
      have first := closed_element element fun items mem =>
        unmarked items (by simp [elementsStrings, mem])
      have others := closed_elements (next :: rest) fun items mem =>
        unmarked items (by rw [elementsStrings]; simp [mem])
      exact first.append ((closed_byte marks _ (by decide)).append
        ((closed_blanks marks element.between).append others))

theorem closed_element : (element : JsonSyntax.Element Value) →
    Unmarked opening closing (elementStrings element) →
    ClosedInside opening closing 0 (elementText element)
  | ⟨value, after, _⟩, unmarked => by
      rw [elementText]
      have inside := closed_value value
        (by simpa [elementStrings] using unmarked)
      exact inside.append (closed_blanks marks after)

theorem closed_members : (members : List (Member Value)) →
    Unmarked opening closing (membersStrings members) →
    ClosedInside opening closing 0 (membersText members)
  | [], _ => by
      rw [membersText]
      exact .nil opening closing
  | [member], unmarked => by
      rw [membersText]
      exact closed_member member fun items mem =>
        unmarked items (by simp [membersStrings, mem])
  | member :: next :: rest, unmarked => by
      rw [membersText]
      have first := closed_member member fun items mem =>
        unmarked items (by simp [membersStrings, mem])
      have others := closed_members (next :: rest) fun items mem =>
        unmarked items (by rw [membersStrings]; simp [mem])
      exact first.append ((closed_byte marks _ (by decide)).append
        ((closed_blanks marks member.between).append others))

theorem closed_member : (member : Member Value) →
    Unmarked opening closing (memberStrings member) →
    ClosedInside opening closing 0 (memberText member)
  | ⟨key, beforeColon, afterColon, value, after, _⟩, unmarked => by
      rw [memberText]
      have quoted := closed_string marks
        (unmarked key (by simp [memberStrings]))
      have inside := closed_value value fun items mem =>
        unmarked items (by simp [memberStrings, mem])
      have behind := (closed_blanks marks beforeColon).append
        ((closed_byte marks 58 (by decide)).append
          ((closed_blanks marks afterColon).append
            (inside.append (closed_blanks marks after))))
      simpa using quoted.append behind

end

end Closed

end Json
end UIoT
