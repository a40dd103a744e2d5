import UIoT.Json.Parser
import UIoT.Library.JsonSyntax

/-!
# Scanning written values

What the loops of `json_get_next_object` find in the text of a JSON document.
A string is passed if it contains no quote, and an object or array if its marks
are balanced where those in strings are counted too; the exponent of a number is
left over.
-/

namespace UIoT
namespace Json

open JsonSyntax

/-! ## Searching characters -/

theorem strchr_append {c : UInt8} {front : List UInt8}
    (absent : c ∉ front) (nonzero : 0 ∉ front) (rest : CharPtr) :
    strchr c (front ++ rest) = strchr c rest := by
  induction front with
  | nil => rfl
  | cons byte front inductionHypothesis =>
      simp only [List.mem_cons, not_or] at absent nonzero
      rw [List.cons_append, strchr, if_neg (Ne.symm absent.1),
        if_neg (Ne.symm nonzero.1)]
      exact inductionHypothesis absent.2 nonzero.2

/-- The first occurrence of a character. -/
theorem strchr_found {c : UInt8} {front : List UInt8} (absent : c ∉ front)
    (nonzero : 0 ∉ front) (rest : CharPtr) :
    strchr c (front ++ c :: rest) = some (c :: rest) := by
  rw [strchr_append absent nonzero, strchr, if_pos rfl]

/-- A character that is not in the string. -/
theorem strchr_absent {c : UInt8} {front : List UInt8} (absent : c ∉ front)
    (nonzero : 0 ∉ front) (zero : c ≠ 0) (behind : CharPtr) :
    strchr c (front ++ 0 :: behind) = none := by
  rw [strchr_append absent nonzero, strchr, if_neg zero.symm, if_pos rfl]

/-- A string without a terminator in its count is compared byte by byte. -/
theorem strncmpEq_iff {name : List UInt8} (nonzero : 0 ∉ name)
    (str : CharPtr) :
    strncmpEq str name name.length = true ↔ name <+: str := by
  induction name generalizing str with
  | nil => simp [strncmpEq]
  | cons byte name inductionHypothesis =>
      simp only [List.mem_cons, not_or] at nonzero
      cases str with
      | nil =>
          simp [strncmpEq, deref, nonzero.1]
      | cons head str =>
          have later := inductionHypothesis nonzero.2 str
          simp only [strncmpEq, deref, List.headD_cons, List.length_cons,
            List.tail_cons, Bool.and_eq_true, beq_iff_eq, Bool.or_eq_true,
            later, List.cons_prefix_cons]
          constructor
          · rintro ⟨rfl, terminated | rest⟩
            · exact absurd terminated.symm nonzero.1
            · exact ⟨rfl, rest⟩
          · rintro ⟨rfl, rest⟩
            exact ⟨rfl, .inr rest⟩

/-! ## Marks -/

/-- The text ends where its first mark is closed, every mark in it counted. -/
def Enclosed (opening closing : UInt8) (text : List UInt8) : Prop :=
  (∀ front, front <+: text → front ≠ [] → front ≠ text →
      front.count closing < front.count opening) ∧
    text.count closing = text.count opening

/-- The first mark of the text is closed somewhere. -/
def Closes (opening closing : UInt8) (text : List UInt8) : Prop :=
  ∃ front, front <+: text ∧ front ≠ [] ∧
    front.count closing = front.count opening

theorem markedLen_of_balanced {opening closing : UInt8}
    (different : opening ≠ closing) (visible : closing ≠ 0)
    {inner : List UInt8} (nonzero : 0 ∉ inner) (rest : CharPtr)
    (markDepth count : Nat)
    (open_inside : ∀ front, front <+: inner →
      front.count closing ≤ markDepth + front.count opening)
    (balanced : inner.count closing = markDepth + inner.count opening) :
    markedLen opening closing (inner ++ closing :: rest) markDepth count =
      some (count + inner.length) := by
  induction inner generalizing markDepth count with
  | nil =>
      obtain rfl : markDepth = 0 := by simpa using balanced.symm
      simp [markedLen, visible]
  | cons byte inner inductionHypothesis =>
      simp only [List.mem_cons, not_or] at nonzero
      have later : ∀ {front}, front <+: inner →
          (byte :: front).count closing ≤
            markDepth + (byte :: front).count opening := fun isPrefix =>
        open_inside _ (List.cons_prefix_cons.mpr ⟨rfl, isPrefix⟩)
      have length_eq : count + 1 + inner.length =
          count + (byte :: inner).length := by
        rw [List.length_cons]
        omega
      rw [List.cons_append, markedLen, if_neg (Ne.symm nonzero.1)]
      by_cases closes : byte = closing
      · subst closes
        have first := later (List.nil_prefix)
        simp only [List.count_cons_self, List.count_nil,
          List.count_cons_of_ne different.symm] at first
        rw [if_pos rfl, if_neg (by omega), ← length_eq]
        apply inductionHypothesis nonzero.2
        · intro front isPrefix
          have bound := later isPrefix
          simp only [List.count_cons_self,
            List.count_cons_of_ne different.symm] at bound
          omega
        · simp only [List.count_cons_self,
            List.count_cons_of_ne different.symm] at balanced
          omega
      rw [if_neg closes]
      by_cases opens : byte = opening
      · subst opens
        rw [if_pos rfl, ← length_eq]
        apply inductionHypothesis nonzero.2
        · intro front isPrefix
          have bound := later isPrefix
          simp only [List.count_cons_self,
            List.count_cons_of_ne different] at bound
          omega
        · simp only [List.count_cons_self,
            List.count_cons_of_ne different] at balanced
          omega
      · rw [if_neg opens, ← length_eq]
        apply inductionHypothesis nonzero.2
        · intro front isPrefix
          have bound := later isPrefix
          simpa only [List.count_cons_of_ne closes,
            List.count_cons_of_ne opens] using bound
        · simpa only [List.count_cons_of_ne closes,
            List.count_cons_of_ne opens] using balanced

/-- Where the marks are not closed, none of the beginnings is balanced. -/
theorem le_of_markedLen_eq_none {opening closing : UInt8}
    (different : opening ≠ closing) {str : CharPtr} {markDepth count : Nat}
    (unclosed : markedLen opening closing str markDepth count = none)
    {front : List UInt8} (isPrefix : front <+: str) (nonzero : 0 ∉ front) :
    front.count closing ≤ markDepth + front.count opening := by
  induction str generalizing markDepth count front with
  | nil => simp [List.prefix_nil.mp isPrefix]
  | cons byte str inductionHypothesis =>
      cases front with
      | nil => simp
      | cons head front =>
          obtain ⟨rfl, isRest⟩ := List.cons_prefix_cons.mp isPrefix
          simp only [List.mem_cons, not_or] at nonzero
          rw [markedLen, if_neg (Ne.symm nonzero.1)] at unclosed
          by_cases closes : head = closing
          · subst closes
            rw [if_pos rfl] at unclosed
            split at unclosed
            · cases unclosed
            · have later := inductionHypothesis unclosed isRest nonzero.2
              simp only [List.count_cons_self,
                List.count_cons_of_ne different.symm]
              omega
          rw [if_neg closes] at unclosed
          by_cases opens : head = opening
          · subst opens
            rw [if_pos rfl] at unclosed
            have later := inductionHypothesis unclosed isRest nonzero.2
            simp only [List.count_cons_self, List.count_cons_of_ne closes]
            omega
          · rw [if_neg opens] at unclosed
            have later := inductionHypothesis unclosed isRest nonzero.2
            simpa only [List.count_cons_of_ne closes,
              List.count_cons_of_ne opens] using later

/-- A text in marks is passed in whole. -/
theorem markedLen_of_enclosed {opening closing : UInt8}
    (different : opening ≠ closing) (visible : closing ≠ 0)
    {inner : List UInt8} (nonzero : 0 ∉ inner)
    (enclosed : Enclosed opening closing (opening :: (inner ++ [closing])))
    (rest : CharPtr) :
    markedLen opening closing (inner ++ closing :: rest) 0 1 =
      some (1 + inner.length) := by
  apply markedLen_of_balanced different visible nonzero
  · intro front isPrefix
    have within : opening :: front <+: opening :: (inner ++ [closing]) :=
      List.cons_prefix_cons.mpr
        ⟨rfl, isPrefix.trans (List.prefix_append ..)⟩
    have shorter : opening :: front ≠ opening :: (inner ++ [closing]) := by
      intro same
      have := congrArg List.length (List.cons.inj same).2
      have := isPrefix.length_le
      simp at *
      omega
    have fewer := enclosed.1 _ within (List.cons_ne_nil _ _) shorter
    simp only [List.count_cons_self, List.count_cons_of_ne different] at fewer
    omega
  · have total := enclosed.2
    simp only [List.count_cons_self, List.count_cons_of_ne different,
      List.count_append, List.count_nil,
      List.count_cons_of_ne different.symm] at total
    omega

/-- A mark that closes has a length. -/
theorem markedLen_of_closes {opening closing : UInt8}
    (different : opening ≠ closing) {text : List UInt8}
    (nonzero : 0 ∉ text) (closes : Closes opening closing (opening :: text))
    (behind : CharPtr) :
    markedLen opening closing (text ++ 0 :: behind) 0 1 ≠ none := by
  intro unclosed
  obtain ⟨front, isPrefix, nonempty, balanced⟩ := closes
  cases front with
  | nil => exact nonempty rfl
  | cons head front =>
      obtain ⟨rfl, isRest⟩ := List.cons_prefix_cons.mp isPrefix
      have bound := le_of_markedLen_eq_none different unclosed
        (isRest.trans (List.prefix_append ..))
        fun mem => nonzero (isRest.mem mem)
      simp only [List.count_cons_self, List.count_cons_of_ne different]
        at balanced
      omega

/-! ## Values -/

/-- The type of a value. -/
def typeOf : Value → JsonType
  | .string _ => .string
  | .number _ => .number
  | .literal .null => .null
  | .literal _ => .boolean
  | .array .. => .array
  | .object .. => .object

/-- The text from the value pointer on. -/
def valueText : Value → List UInt8
  | .string items => rawText items ++ [34]
  | value => value.text

/-- No quote is left of the value where the scan goes on behind it. -/
def Passed : Value → Prop
  | .string items => 34 ∉ rawText items
  | .number _ => True
  | .literal _ => True
  | .array gap elements => Enclosed 91 93 (Value.array gap elements).text
  | .object gap members => Enclosed 123 125 (Value.object gap members).text

/-- What is left of the value where the scan goes on. -/
def leftOver : Value → List UInt8
  | .number number => exponentText number.exponent
  | _ => []

/-- A byte that ends a number. -/
def Delimits (byte : UInt8) : Prop :=
  byte ≠ 0 ∧ (byte < 48 ∨ 57 < byte) ∧ byte ≠ 46

theorem Blanks.delimits (blanks : Blanks) :
    ∀ byte ∈ blanks.bytes, Delimits byte := by
  intro byte mem
  rcases blanks.blank byte mem with rfl | rfl | rfl | rfl <;>
    exact ⟨by decide, by decide, by decide⟩

/-- A number begins with its sign or a digit, and digits and points follow. -/
theorem mantissa_cons (number : Number) :
    ∃ byte rest, number.mantissa = byte :: rest ∧
      (byte = 45 ∨ 48 ≤ byte ∧ byte ≤ 57) ∧
      ∀ byte ∈ rest, 48 ≤ byte ∧ byte ≤ 57 ∨ byte = 46 := by
  obtain ⟨negative, ⟨digits, nonempty, digit⟩, -, fraction, exponent⟩ := number
  have follows : ∀ byte ∈ fractionText fraction,
      48 ≤ byte ∧ byte ≤ 57 ∨ byte = 46 := by
    intro byte mem
    cases fraction with
    | none => cases mem
    | some decimals =>
        rcases List.mem_cons.mp mem with same | mem
        · exact .inr same
        · exact .inl (decimals.digit byte mem)
  cases negative with
  | true =>
      refine ⟨45, digits ++ fractionText fraction, rfl, .inl rfl,
        fun byte mem => ?_⟩
      rcases List.mem_append.mp mem with mem | mem
      · exact .inl (digit byte mem)
      · exact follows byte mem
  | false =>
      cases digits with
      | nil => exact absurd rfl nonempty
      | cons first digits =>
          refine ⟨first, digits ++ fractionText fraction, rfl,
            .inr (digit first (List.mem_cons_self ..)), fun byte mem => ?_⟩
          rcases List.mem_append.mp mem with mem | mem
          · exact .inl (digit byte (List.mem_cons_of_mem _ mem))
          · exact follows byte mem

theorem findValue_blanks (blanks : Blanks) (rest : CharPtr) :
    findValue (blanks.bytes ++ rest) = findValue rest := by
  obtain ⟨bytes, blank⟩ := blanks
  induction bytes with
  | nil => rfl
  | cons byte bytes inductionHypothesis =>
      have later := inductionHypothesis fun other mem =>
        blank other (List.mem_cons_of_mem _ mem)
      rw [List.cons_append, findValue]
      rcases blank byte (List.mem_cons_self ..) with rfl | rfl | rfl | rfl <;>
        simpa using later

/-- The value of a member is found behind its colon. -/
theorem findValue_value (value : Value) (rest : CharPtr) :
    findValue (value.text ++ rest) =
      some (typeOf value, valueText value ++ rest) := by
  cases value with
  | string items => simp [Value.text, findValue, typeOf, valueText]
  | number number =>
      obtain ⟨byte, digits, mantissa, first, -⟩ := mantissa_cons number
      have begins : ∃ rest, number.bytes = byte :: rest := by
        unfold Number.bytes
        exact ⟨_, by rw [mantissa]; rfl⟩
      obtain ⟨others, bytes⟩ := begins
      simp only [Value.text, valueText, typeOf, bytes, List.cons_append,
        findValue]
      have plain : byte ≠ 0 ∧ byte ≠ 34 ∧ byte ≠ 123 ∧ byte ≠ 91 := by
        rcases first with rfl | ⟨low, high⟩
        · decide
        · refine ⟨?_, ?_, ?_, ?_⟩ <;> rintro rfl <;> revert low high <;> decide
      rw [if_neg plain.1, if_neg plain.2.1, if_neg plain.2.2.1,
        if_neg plain.2.2.2, if_pos first]
  | literal literal => cases literal <;> rfl
  | array gap elements => simp [Value.text, findValue, typeOf, valueText]
  | object gap members => simp [Value.text, findValue, typeOf, valueText]

theorem numberLen_digits {digits : List UInt8}
    (digit : ∀ byte ∈ digits, 48 ≤ byte ∧ byte ≤ 57 ∨ byte = 46)
    {next : UInt8} (delimits : Delimits next) (rest : CharPtr) (count : Nat) :
    numberLen (digits ++ next :: rest) count = count + digits.length := by
  induction digits generalizing count with
  | nil =>
      rw [List.nil_append, numberLen, if_neg delimits.1, if_pos delimits.2]
      rfl
  | cons byte digits inductionHypothesis =>
      have later := inductionHypothesis
        (fun other mem => digit other (List.mem_cons_of_mem _ mem)) (count + 1)
      have nonzero : byte ≠ 0 := by
        rcases digit byte (List.mem_cons_self ..) with ⟨low, -⟩ | rfl
        · rintro rfl
          exact absurd low (by decide)
        · decide
      have passes : ¬((byte < 48 ∨ 57 < byte) ∧ byte ≠ 46) := by
        rcases digit byte (List.mem_cons_self ..) with ⟨low, high⟩ | same
        · rintro ⟨before | behind, -⟩
          · exact absurd low (UInt8.not_le.mpr before)
          · exact absurd high (UInt8.not_le.mpr behind)
        · exact fun stops => stops.2 same
      rw [List.cons_append, numberLen, if_neg nonzero, if_neg passes, later,
        List.length_cons]
      omega

theorem markedLen_quote {text : List UInt8} (absent : 34 ∉ text)
    (nonzero : 0 ∉ text) (rest : CharPtr) (count : Nat) :
    markedLen 34 34 (text ++ 34 :: rest) 0 count =
      some (count + text.length) := by
  induction text generalizing count with
  | nil => rfl
  | cons byte text inductionHypothesis =>
      simp only [List.mem_cons, not_or] at absent nonzero
      rw [List.cons_append, markedLen, if_neg (Ne.symm nonzero.1),
        if_neg (Ne.symm absent.1), if_neg (Ne.symm absent.1),
        inductionHypothesis absent.2 nonzero.2, List.length_cons]
      congr 1
      omega

/-- What is left over ends a number and contains no quote. -/
theorem leftOver_clean (value : Value) :
    34 ∉ leftOver value ∧ 0 ∉ leftOver value ∧
      (leftOver value = [] ∨
        ∃ first rest, leftOver value = first :: rest ∧ Delimits first) := by
  cases value with
  | number number =>
      simp only [leftOver]
      refine ⟨?_, exponentText_ne_zero _, ?_⟩
      · cases number.exponent with
        | none => exact List.not_mem_nil
        | some exponent =>
            obtain ⟨capital, sign, digits⟩ := exponent
            intro mem
            rcases List.mem_cons.mp mem with same | mem
            · split at same <;> exact absurd same (by decide)
            rcases List.mem_append.mp mem with mem | mem
            · split at mem <;> simp at mem
            · exact absurd (digits.digit 34 mem).1 (by decide)
      · cases number.exponent with
        | none => exact .inl rfl
        | some exponent =>
            refine .inr ⟨_, _, rfl, ?_⟩
            split <;> exact ⟨by decide, by decide, by decide⟩
  | _ => exact ⟨List.not_mem_nil, List.not_mem_nil, .inl rfl⟩

/-- A value that is passed is cut in front of what is left over of it. -/
theorem valueLen_of_passed {value : Value} (passed : Passed value)
    {next : UInt8} (delimits : Delimits next) (rest : CharPtr) :
    valueLen (typeOf value) (valueText value ++ next :: rest) +
      (leftOver value).length = value.content.length := by
  have nonzero := value.ne_zero
  cases value with
  | string items =>
      have cut := markedLen_quote passed (rawText_ne_zero items)
        (next :: rest) 0
      simp [typeOf, valueText, valueLen, cut, Value.content, leftOver]
  | number number =>
      obtain ⟨byte, digits, mantissa, -, digit⟩ := mantissa_cons number
      obtain ⟨-, -, ends⟩ := leftOver_clean (.number number)
      have cut : ∃ first others, exponentText number.exponent ++ next :: rest =
          first :: others ∧ Delimits first := by
        simp only [leftOver] at ends
        rcases ends with none | ⟨first, others, some, ends⟩
        · exact ⟨next, rest, by rw [none]; rfl, delimits⟩
        · exact ⟨first, others ++ next :: rest, by rw [some]; rfl, ends⟩
      obtain ⟨first, others, cut, ends⟩ := cut
      simp only [typeOf, valueText, valueLen, Value.content, Value.text,
        leftOver, Number.bytes, mantissa, List.cons_append, List.tail_cons,
        List.append_assoc, cut]
      rw [numberLen_digits digit ends, List.length_cons, List.length_append]
      omega
  | literal literal => cases literal <;> rfl
  | array gap elements =>
      let inner := gap.bytes ++ elementsText elements
      have text_eq : (Value.array gap elements).text =
          91 :: (inner ++ [93]) := by
        simp [inner, Value.text]
      have inside : 0 ∉ inner := fun mem => nonzero (by simp [text_eq, mem])
      have enclosed : Enclosed 91 93 (91 :: (inner ++ [93])) := by
        rw [← text_eq]
        exact passed
      have cut := markedLen_of_enclosed (by decide) (by decide) inside
        enclosed (next :: rest)
      simp only [typeOf, valueText, valueLen, Value.content, text_eq, leftOver]
      simp [cut, Nat.add_comm]
  | object gap members =>
      let inner := gap.bytes ++ membersText members
      have text_eq : (Value.object gap members).text =
          123 :: (inner ++ [125]) := by
        simp [inner, Value.text]
      have inside : 0 ∉ inner := fun mem => nonzero (by simp [text_eq, mem])
      have enclosed : Enclosed 123 125 (123 :: (inner ++ [125])) := by
        rw [← text_eq]
        exact passed
      have cut := markedLen_of_enclosed (by decide) (by decide) inside
        enclosed (next :: rest)
      simp only [typeOf, valueText, valueLen, Value.content, text_eq, leftOver]
      simp [cut, Nat.add_comm]

end Json
end UIoT
