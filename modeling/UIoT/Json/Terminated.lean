import UIoT.Json.Enumeration

/-!
# Scanning a terminated string

The functions of the scanner read a string up to its terminator, so what they
find in it does not depend on the bytes behind.  The position they return can
still lie there.
-/

namespace UIoT
namespace Json

/-! ## Searching -/

theorem strchr_terminated {c : UInt8} (visible : c ≠ 0) {text : List UInt8}
    (nonzero : 0 ∉ text) (behind : CharPtr) :
    strchr c (text ++ 0 :: behind) =
      (strchr c text).map (· ++ 0 :: behind) := by
  induction text with
  | nil =>
      change (if 0 = c then _ else none) = none
      exact if_neg visible.symm
  | cons byte text inductionHypothesis =>
      simp only [List.mem_cons, not_or] at nonzero
      rw [List.cons_append, strchr, strchr]
      by_cases same : byte = c
      · rw [if_pos same, if_pos same]
        rfl
      · rw [if_neg same, if_neg same, if_neg (Ne.symm nonzero.1),
          if_neg (Ne.symm nonzero.1), inductionHypothesis nonzero.2]

/-- What is found is the first occurrence. -/
theorem strchr_eq_some_iff {c : UInt8} {text : List UInt8}
    (nonzero : 0 ∉ text) {found : CharPtr} :
    strchr c text = some found ↔
      ∃ front rest, text = front ++ c :: rest ∧ c ∉ front ∧
        found = c :: rest := by
  constructor
  · intro answer
    induction text with
    | nil => cases answer
    | cons byte text inductionHypothesis =>
        simp only [List.mem_cons, not_or] at nonzero
        rw [strchr, if_neg (Ne.symm nonzero.1)] at answer
        split at answer
        · rename_i same
          rw [← Option.some.inj answer, same]
          exact ⟨[], text, rfl, List.not_mem_nil, rfl⟩
        · rename_i different
          obtain ⟨front, rest, rfl, absent, rfl⟩ :=
            inductionHypothesis nonzero.2 answer
          refine ⟨byte :: front, rest, rfl, ?_, rfl⟩
          simp only [List.mem_cons, not_or]
          exact ⟨Ne.symm different, absent⟩
  · rintro ⟨front, rest, rfl, absent, rfl⟩
    exact strchr_found absent (fun mem => nonzero (List.mem_append_left _ mem))
      rest

/-! ## Finding a value -/

/-- The bytes a value can begin with. -/
def OpensValue (byte : UInt8) : Prop :=
  byte = 34 ∨ byte = 123 ∨ byte = 91 ∨ (byte = 45 ∨ 48 ≤ byte ∧ byte ≤ 57) ∨
    (byte = 116 ∨ byte = 84 ∨ byte = 102 ∨ byte = 70) ∨
    (byte = 110 ∨ byte = 78)

instance (byte : UInt8) : Decidable (OpensValue byte) :=
  inferInstanceAs (Decidable (_ ∨ _))

/-- The type of the value a byte begins. -/
def openedType (byte : UInt8) : JsonType :=
  if byte = 34 then .string
  else if byte = 123 then .object
  else if byte = 91 then .array
  else if byte = 45 ∨ 48 ≤ byte ∧ byte ≤ 57 then .number
  else if byte = 116 ∨ byte = 84 ∨ byte = 102 ∨ byte = 70 then .boolean
  else .null

/-- The pointer to a value that begins there. -/
def openedValue (byte : UInt8) (rest : CharPtr) : CharPtr :=
  if byte = 34 then rest else byte :: rest

theorem openedType_string_iff {byte : UInt8} :
    openedType byte = .string ↔ byte = 34 := by
  unfold openedType
  split_ifs <;> simp_all

theorem findValue_opens {byte : UInt8} (opens : OpensValue byte)
    (rest : CharPtr) :
    findValue (byte :: rest) =
      some (openedType byte, openedValue byte rest) := by
  have visible : byte ≠ 0 := by
    rintro rfl
    revert opens
    decide
  rw [findValue, if_neg visible, openedType, openedValue]
  split_ifs with quote brace bracket digit letter other
  · rfl
  · rfl
  · rfl
  · rfl
  · rfl
  · rfl
  · rcases opens with h | h | h | h | h | h
    · exact absurd h quote
    · exact absurd h brace
    · exact absurd h bracket
    · exact absurd h digit
    · exact absurd h letter
    · exact absurd h other

theorem findValue_passes {byte : UInt8} (plain : ¬OpensValue byte)
    (visible : byte ≠ 0) (rest : CharPtr) :
    findValue (byte :: rest) = findValue rest := by
  simp only [OpensValue, not_or] at plain
  obtain ⟨quote, brace, bracket, digit, letter, other⟩ := plain
  rw [findValue, if_neg visible, if_neg quote, if_neg brace, if_neg bracket,
    if_neg (by simpa only [not_or] using digit),
    if_neg (by simpa only [not_or] using letter),
    if_neg (by simpa only [not_or] using other)]

/-- The value found is the first one that begins. -/
theorem findValue_eq_some_iff {text : List UInt8} (nonzero : 0 ∉ text)
    {type : JsonType} {val : CharPtr} :
    findValue text = some (type, val) ↔
      ∃ front byte rest, text = front ++ byte :: rest ∧
        (∀ byte ∈ front, ¬OpensValue byte) ∧ OpensValue byte ∧
        type = openedType byte ∧ val = openedValue byte rest := by
  induction text with
  | nil => simp [findValue]
  | cons byte text inductionHypothesis =>
      simp only [List.mem_cons, not_or] at nonzero
      have later := inductionHypothesis nonzero.2
      by_cases opens : OpensValue byte
      · rw [findValue_opens opens]
        constructor
        · intro answer
          obtain ⟨rfl, rfl⟩ := Prod.mk.inj (Option.some.inj answer)
          exact ⟨[], byte, text, rfl, List.forall_mem_nil _, opens, rfl, rfl⟩
        · rintro ⟨front, first, rest, parts, plain, -, rfl, rfl⟩
          cases front with
          | nil =>
              obtain ⟨rfl, rfl⟩ := List.cons.inj parts
              rfl
          | cons head front =>
              obtain ⟨rfl, -⟩ := List.cons.inj parts
              exact absurd opens (plain byte (List.mem_cons_self ..))
      · rw [findValue_passes opens (Ne.symm nonzero.1), later]
        constructor
        · rintro ⟨front, first, rest, rfl, plain, others⟩
          exact ⟨byte :: front, first, rest, rfl,
            List.forall_mem_cons.mpr ⟨opens, plain⟩, others⟩
        · rintro ⟨front, first, rest, parts, plain, opened, others⟩
          cases front with
          | nil =>
              obtain ⟨rfl, rfl⟩ := List.cons.inj parts
              exact absurd opened opens
          | cons head front =>
              obtain ⟨rfl, rfl⟩ := List.cons.inj parts
              exact ⟨front, first, rest, rfl,
                (List.forall_mem_cons.mp plain).2, opened, others⟩

theorem findValue_terminated {text : List UInt8} (nonzero : 0 ∉ text)
    (behind : CharPtr) :
    findValue (text ++ 0 :: behind) =
      (findValue text).map fun found =>
        (found.1, found.2 ++ 0 :: behind) := by
  induction text with
  | nil => rfl
  | cons byte text inductionHypothesis =>
      simp only [List.mem_cons, not_or] at nonzero
      rw [List.cons_append]
      by_cases opens : OpensValue byte
      · rw [findValue_opens opens, findValue_opens opens, Option.map_some]
        unfold openedValue
        split <;> rfl
      · rw [findValue_passes opens (Ne.symm nonzero.1),
          findValue_passes opens (Ne.symm nonzero.1)]
        exact inductionHypothesis nonzero.2

/-! ## The length of a value -/

theorem numberLen_terminated {text : List UInt8} (nonzero : 0 ∉ text)
    (behind : CharPtr) (count : Nat) :
    numberLen (text ++ 0 :: behind) count = numberLen text count := by
  induction text generalizing count with
  | nil => rfl
  | cons byte text inductionHypothesis =>
      simp only [List.mem_cons, not_or] at nonzero
      rw [List.cons_append, numberLen, numberLen, inductionHypothesis nonzero.2]

theorem numberLen_le (text : CharPtr) (count : Nat) :
    numberLen text count ≤ count + text.length := by
  induction text generalizing count with
  | nil => exact Nat.zero_le _
  | cons byte text inductionHypothesis =>
      have later := inductionHypothesis (count + 1)
      rw [numberLen, List.length_cons]
      split_ifs <;> omega

theorem markedLen_terminated (opening closing : UInt8) {text : List UInt8}
    (nonzero : 0 ∉ text) (behind : CharPtr) (markDepth count : Nat) :
    markedLen opening closing (text ++ 0 :: behind) markDepth count =
      markedLen opening closing text markDepth count := by
  induction text generalizing markDepth count with
  | nil => rfl
  | cons byte text inductionHypothesis =>
      simp only [List.mem_cons, not_or] at nonzero
      have later := inductionHypothesis nonzero.2
      rw [List.cons_append, markedLen, markedLen, later, later, later]

theorem markedLen_lt {opening closing : UInt8} {text : CharPtr}
    {markDepth count len : Nat}
    (found : markedLen opening closing text markDepth count = some len) :
    len < count + text.length := by
  induction text generalizing markDepth count with
  | nil => cases found
  | cons byte text inductionHypothesis =>
      rw [markedLen] at found
      rw [List.length_cons]
      split at found
      · cases found
      split at found
      · split at found
        · have same := Option.some.inj found
          omega
        · have later := inductionHypothesis found
          omega
      · split at found
        · have later := inductionHypothesis found
          omega
        · have later := inductionHypothesis found
          omega

theorem strncmpEq_terminated {name : List UInt8} (named : 0 ∉ name)
    (text : List UInt8) (behind : CharPtr) :
    strncmpEq (text ++ 0 :: behind) name name.length =
      strncmpEq text name name.length := by
  rw [Bool.eq_iff_iff, strncmpEq_iff named, strncmpEq_iff named]
  constructor
  · exact prefix_of_terminated named
  · intro isPrefix
    exact isPrefix.trans (List.prefix_append ..)

theorem nameLen_terminated {small capital : List UInt8} (first : 0 ∉ small)
    (second : 0 ∉ capital) (text : List UInt8) (behind : CharPtr) :
    nameLen (text ++ 0 :: behind) small capital =
      nameLen text small capital := by
  rw [nameLen, nameLen, strncmpEq_terminated first,
    strncmpEq_terminated second]

theorem nameLen_le {small capital : List UInt8} (first : 0 ∉ small)
    (second : 0 ∉ capital) (same : capital.length = small.length)
    (text : CharPtr) : nameLen text small capital ≤ text.length := by
  rw [nameLen]
  split
  · rename_i answers
    rw [Bool.or_eq_true, strncmpEq_iff first, strncmpEq_iff second] at answers
    rcases answers with isPrefix | isPrefix
    · exact isPrefix.length_le
    · rw [← same]
      exact isPrefix.length_le
  · exact Nat.zero_le _

theorem deref_append {text : List UInt8} (nonempty : text ≠ [])
    (rest : CharPtr) : deref (text ++ rest) = deref text := by
  cases text with
  | nil => exact absurd rfl nonempty
  | cons byte text => rfl

/-- The length of a value is found in front of the terminator. -/
theorem valueLen_terminated {type : JsonType} {val : List UInt8}
    (nonzero : 0 ∉ val) (begins : type = .string ∨ val ≠ [])
    (behind : CharPtr) :
    valueLen type (val ++ 0 :: behind) = valueLen type val := by
  have tail : type ≠ .string →
      (val ++ 0 :: behind).tail = val.tail ++ 0 :: behind := fun other =>
    List.tail_append_of_ne_nil (begins.resolve_left other)
  have later : 0 ∉ val.tail := fun mem => nonzero (List.mem_of_mem_tail mem)
  cases type with
  | string =>
      change (markedLen 34 34 _ 0 0).getD 0 = (markedLen 34 34 _ 0 0).getD 0
      rw [markedLen_terminated _ _ nonzero]
  | object =>
      rw [valueLen, valueLen, tail (by decide), markedLen_terminated _ _ later]
  | array =>
      rw [valueLen, valueLen, tail (by decide), markedLen_terminated _ _ later]
  | number => exact (tail (by decide) ▸ numberLen_terminated later behind 1 :)
  | boolean =>
      have nonempty := begins.resolve_left (by decide)
      rw [valueLen, valueLen, deref_append nonempty,
        nameLen_terminated (by decide) (by decide),
        nameLen_terminated (by decide) (by decide)]
  | null =>
      rw [valueLen, valueLen, nameLen_terminated (by decide) (by decide)]

/-- A value lies in the string, a string with its closing quote where it is not
empty. -/
theorem valueLen_le (type : JsonType) (val : List UInt8) :
    valueLen type val ≤ val.length ∧
      (type = .string → val ≠ [] → valueLen type val + 1 ≤ val.length) := by
  have marked : ∀ opening closing,
      ((markedLen opening closing val.tail 0 1).map (· + 1)).getD 0 ≤
        val.length := by
    intro opening closing
    cases val with
    | nil => exact Nat.zero_le _
    | cons byte val =>
        cases found : markedLen opening closing val 0 1 with
        | none =>
            rw [List.tail_cons, found]
            exact Nat.zero_le _
        | some len =>
            have less := markedLen_lt found
            rw [List.tail_cons, found, List.length_cons, Option.map_some,
              Option.getD_some]
            omega
  cases type with
  | string =>
      rw [valueLen]
      cases found : markedLen 34 34 val 0 0 with
      | none =>
          exact ⟨Nat.zero_le _, fun _ nonempty =>
            List.length_pos_iff.mpr nonempty⟩
      | some len =>
          have less := markedLen_lt found
          rw [Option.getD_some]
          omega
  | object => exact ⟨marked 123 125, fun string => by cases string⟩
  | array => exact ⟨marked 91 93, fun string => by cases string⟩
  | number =>
      refine ⟨?_, fun string => by cases string⟩
      cases val with
      | nil => exact Nat.zero_le _
      | cons byte val =>
          have bound := numberLen_le val 1
          rw [valueLen, List.tail_cons, List.length_cons]
          omega
  | boolean =>
      refine ⟨?_, fun string => by cases string⟩
      rw [valueLen]
      split
      · apply nameLen_le <;> decide
      · apply nameLen_le <;> decide
  | null =>
      refine ⟨?_, fun string => by cases string⟩
      rw [valueLen]
      apply nameLen_le <;> decide

end Json
end UIoT
