import Mathlib.Data.List.Basic

/-!
# JSON documents

Concrete syntax trees of JSON texts in bytes, with every blank where the
grammar allows one.  A string is a sequence of items, each written in one of
the ways the grammar has; its value is the sequence of bytes it stands for.
Looking a name up in an object takes the first member of that name.
-/

namespace JsonSyntax

/-! ## Tokens -/

/-- Blanks between tokens. -/
structure Blanks where
  bytes : List UInt8
  blank : ∀ byte ∈ bytes, byte = 32 ∨ byte = 9 ∨ byte = 10 ∨ byte = 13
  deriving DecidableEq

/-- No blank. -/
def Blanks.none : Blanks := ⟨[], by simp⟩

/-- The escapes of a single character. -/
inductive Escape
  | quote
  | backslash
  | slash
  | backspace
  | formFeed
  | lineFeed
  | carriageReturn
  | tab
  deriving DecidableEq

/-- The letter behind the backslash. -/
def Escape.letter : Escape → UInt8
  | quote => 34
  | backslash => 92
  | slash => 47
  | backspace => 98
  | formFeed => 102
  | lineFeed => 110
  | carriageReturn => 114
  | tab => 116

/-- The character an escape stands for. -/
def Escape.value : Escape → UInt8
  | quote => 34
  | backslash => 92
  | slash => 47
  | backspace => 8
  | formFeed => 12
  | lineFeed => 10
  | carriageReturn => 13
  | tab => 9

/-- A hexadecimal digit. -/
structure HexDigit where
  value : Fin 16
  upper : Bool
  deriving DecidableEq

/-- The digit as it is written. -/
def HexDigit.byte (digit : HexDigit) : UInt8 :=
  if digit.value.val < 10 then UInt8.ofNat (48 + digit.value.val)
  else if digit.upper then UInt8.ofNat (55 + digit.value.val)
  else UInt8.ofNat (87 + digit.value.val)

/-- One item of a string: a byte that stands for itself, an escape of one
character, or four hexadecimal digits. -/
inductive StringItem
  | plain (byte : UInt8) (allowed : 32 ≤ byte ∧ byte ≠ 34 ∧ byte ≠ 92)
  | escape (code : Escape)
  | unicode (first second third fourth : HexDigit)
  deriving DecidableEq

/-- The item as it is written. -/
def StringItem.bytes : StringItem → List UInt8
  | plain byte _ => [byte]
  | escape code => [92, code.letter]
  | unicode first second third fourth =>
      [92, 117, first.byte, second.byte, third.byte, fourth.byte]

/-- A string as it is written between its quotes. -/
def rawText (items : List StringItem) : List UInt8 :=
  items.flatMap StringItem.bytes

/-- The code unit of four hexadecimal digits. -/
def codeUnit (first second third fourth : HexDigit) : Nat :=
  ((first.value.val * 16 + second.value.val) * 16 + third.value.val) * 16 +
    fourth.value.val

/-- The UTF-8 bytes of a code point; a surrogate on its own stands for the
replacement character. -/
def utf8 (codePoint : Nat) : List UInt8 :=
  String.utf8EncodeChar
    (if codePoint.isValidChar then Char.ofNat codePoint else Char.ofNat 0xfffd)

/-- The bytes a string stands for. -/
def stringValue : List StringItem → List UInt8
  | [] => []
  | .plain byte _ :: items => byte :: stringValue items
  | .escape code :: items => code.value :: stringValue items
  | .unicode a b c d :: .unicode e f g h :: items =>
      let high := codeUnit a b c d
      let low := codeUnit e f g h
      if 0xd800 ≤ high ∧ high < 0xdc00 ∧ 0xdc00 ≤ low ∧ low < 0xe000 then
        utf8 (0x10000 + (high - 0xd800) * 0x400 + (low - 0xdc00)) ++
          stringValue items
      else
        utf8 high ++ stringValue (.unicode e f g h :: items)
  | .unicode a b c d :: items => utf8 (codeUnit a b c d) ++ stringValue items

/-- A string without escapes stands for its own bytes. -/
theorem stringValue_eq_rawText {items : List StringItem}
    (plain : 92 ∉ rawText items) : stringValue items = rawText items := by
  induction items with
  | nil => rfl
  | cons item items inductionHypothesis =>
      have later : 92 ∉ rawText items := fun mem =>
        plain (List.mem_append_right _ mem)
      cases item with
      | plain byte allowed =>
          rw [stringValue, inductionHypothesis later]
          rfl
      | escape code => exact absurd (by simp [rawText, StringItem.bytes]) plain
      | unicode a b c d =>
          exact absurd (by simp [rawText, StringItem.bytes]) plain

/-- One or more digits. -/
structure Digits where
  bytes : List UInt8
  some_digit : bytes ≠ []
  digit : ∀ byte ∈ bytes, 48 ≤ byte ∧ byte ≤ 57
  deriving DecidableEq

/-- The exponent of a number. -/
structure Exponent where
  capital : Bool
  sign : Option Bool
  digits : Digits
  deriving DecidableEq

/-- The exponent as it is written. -/
def Exponent.bytes (exponent : Exponent) : List UInt8 :=
  (if exponent.capital then 69 else 101) ::
    ((match exponent.sign with
      | none => []
      | some true => [45]
      | some false => [43]) ++ exponent.digits.bytes)

/-- A number. -/
structure Number where
  negative : Bool
  whole : Digits
  noLeadingZero : whole.bytes = [48] ∨ whole.bytes.head? ≠ some 48
  fraction : Option Digits
  exponent : Option Exponent
  deriving DecidableEq

/-- The fraction as it is written. -/
def fractionText : Option Digits → List UInt8
  | none => []
  | some digits => 46 :: digits.bytes

/-- The number as it is written, up to its exponent. -/
def Number.mantissa (number : Number) : List UInt8 :=
  (if number.negative then [45] else []) ++
    (number.whole.bytes ++ fractionText number.fraction)

/-- The exponent as it is written, if there is one. -/
def exponentText : Option Exponent → List UInt8
  | none => []
  | some exponent => exponent.bytes

/-- The number as it is written. -/
def Number.bytes (number : Number) : List UInt8 :=
  number.mantissa ++ exponentText number.exponent

/-- The three names of the grammar. -/
inductive Literal
  | true
  | false
  | null
  deriving DecidableEq

/-- The name as it is written. -/
def Literal.bytes : Literal → List UInt8
  | true => [116, 114, 117, 101]
  | false => [102, 97, 108, 115, 101]
  | null => [110, 117, 108, 108]

/-! ## Values -/

/-- An element of an array, with the blanks behind it and those in front of the
element that follows it. -/
structure Element (V : Type) where
  value : V
  after : Blanks
  between : Blanks

/-- A member of an object, with the blanks in it and behind it and those in
front of the member that follows it. -/
structure Member (V : Type) where
  key : List StringItem
  beforeColon : Blanks
  afterColon : Blanks
  value : V
  after : Blanks
  between : Blanks

/-- A value. -/
inductive Value
  | string (items : List StringItem)
  | number (number : Number)
  | literal (literal : Literal)
  | array (gap : Blanks) (elements : List (Element Value))
  | object (gap : Blanks) (members : List (Member Value))

mutual

/-- The value as it is written. -/
def Value.text : Value → List UInt8
  | .string items => 34 :: (rawText items ++ [34])
  | .number number => number.bytes
  | .literal literal => literal.bytes
  | .array gap elements => 91 :: (gap.bytes ++ elementsText elements ++ [93])
  | .object gap members => 123 :: (gap.bytes ++ membersText members ++ [125])

/-- The elements as they are written, a comma between any two of them. -/
def elementsText : List (Element Value) → List UInt8
  | [] => []
  | [element] => elementText element
  | element :: next :: rest =>
      elementText element ++
        44 :: (element.between.bytes ++ elementsText (next :: rest))

/-- The element as it is written. -/
def elementText : Element Value → List UInt8
  | ⟨value, after, _⟩ => value.text ++ after.bytes

/-- The members as they are written, a comma between any two of them. -/
def membersText : List (Member Value) → List UInt8
  | [] => []
  | [member] => memberText member
  | member :: next :: rest =>
      memberText member ++
        44 :: (member.between.bytes ++ membersText (next :: rest))

/-- The member as it is written. -/
def memberText : Member Value → List UInt8
  | ⟨key, beforeColon, afterColon, value, after, _⟩ =>
      34 :: (rawText key ++ 34 :: (beforeColon.bytes ++
        58 :: (afterColon.bytes ++ (value.text ++ after.bytes))))

end

theorem memberText_eq (member : Member Value) :
    memberText member =
      34 :: (rawText member.key ++ 34 :: (member.beforeColon.bytes ++
        58 :: (member.afterColon.bytes ++
          (member.value.text ++ member.after.bytes)))) := by
  cases member
  rw [memberText]

/-- The value as it is written, a string without its quotes. -/
def Value.content : Value → List UInt8
  | .string items => rawText items
  | value => value.text

/-! ## No byte is zero -/

theorem Blanks.ne_zero (blanks : Blanks) : 0 ∉ blanks.bytes := by
  intro mem
  rcases blanks.blank 0 mem with same | same | same | same <;>
    exact absurd same (by decide)

theorem HexDigit.byte_ne_zero (digit : HexDigit) : digit.byte ≠ 0 := by
  obtain ⟨value, upper⟩ := digit
  revert value upper
  decide

theorem rawText_ne_zero (items : List StringItem) : 0 ∉ rawText items := by
  intro mem
  obtain ⟨item, -, mem⟩ := List.mem_flatMap.mp mem
  cases item with
  | plain byte allowed =>
      obtain rfl := List.mem_singleton.mp mem
      exact absurd allowed.1 (by decide)
  | escape code => cases code <;> simp [StringItem.bytes, Escape.letter] at mem
  | unicode a b c d =>
      have digits := fun digit : HexDigit => (digit.byte_ne_zero).symm
      simp [StringItem.bytes, digits] at mem

theorem Digits.ne_zero (digits : Digits) : 0 ∉ digits.bytes :=
  fun mem => absurd (digits.digit 0 mem).1 (by decide)

theorem Exponent.ne_zero (exponent : Exponent) : 0 ∉ exponent.bytes := by
  intro mem
  unfold Exponent.bytes at mem
  rcases List.mem_cons.mp mem with same | mem
  · split at same <;> exact absurd same (by decide)
  rcases List.mem_append.mp mem with mem | mem
  · split at mem <;> simp at mem
  · exact exponent.digits.ne_zero mem

theorem Number.mantissa_ne_zero (number : Number) : 0 ∉ number.mantissa := by
  intro mem
  rcases List.mem_append.mp mem with mem | mem
  · split at mem <;> simp at mem
  rcases List.mem_append.mp mem with mem | mem
  · exact number.whole.ne_zero mem
  · cases fraction : number.fraction with
    | none => simp [fraction, fractionText] at mem
    | some digits =>
        rw [fraction] at mem
        rcases List.mem_cons.mp mem with same | mem
        · exact absurd same (by decide)
        · exact digits.ne_zero mem

theorem exponentText_ne_zero (exponent : Option Exponent) :
    0 ∉ exponentText exponent := by
  cases exponent with
  | none => exact List.not_mem_nil
  | some exponent => exact exponent.ne_zero

theorem Number.ne_zero (number : Number) : 0 ∉ number.bytes := by
  intro mem
  rcases List.mem_append.mp mem with mem | mem
  · exact number.mantissa_ne_zero mem
  · exact exponentText_ne_zero _ mem

mutual

/-- No byte of a value is zero. -/
theorem Value.ne_zero : (value : Value) → 0 ∉ value.text
  | .string items => by
      simpa [Value.text] using rawText_ne_zero items
  | .number number => number.ne_zero
  | .literal literal => by cases literal <;> decide
  | .array gap elements => by
      simpa [Value.text, gap.ne_zero] using elementsText_ne_zero elements
  | .object gap members => by
      simpa [Value.text, gap.ne_zero] using membersText_ne_zero members

theorem elementsText_ne_zero :
    (elements : List (Element Value)) → 0 ∉ elementsText elements
  | [] => by simp [elementsText]
  | [element] => elementText_ne_zero element
  | element :: next :: rest => by
      have first := elementText_ne_zero element
      have others := elementsText_ne_zero (next :: rest)
      simp [elementsText, first, others, element.between.ne_zero]

theorem elementText_ne_zero :
    (element : Element Value) → 0 ∉ elementText element
  | ⟨value, after, _⟩ => by
      simp [elementText, value.ne_zero, after.ne_zero]

theorem membersText_ne_zero :
    (members : List (Member Value)) → 0 ∉ membersText members
  | [] => by simp [membersText]
  | [member] => memberText_ne_zero member
  | member :: next :: rest => by
      have first := memberText_ne_zero member
      have others := membersText_ne_zero (next :: rest)
      simp [membersText, first, others, member.between.ne_zero]

theorem memberText_ne_zero :
    (member : Member Value) → 0 ∉ memberText member
  | ⟨key, beforeColon, afterColon, value, after, _⟩ => by
      simp [memberText, rawText_ne_zero, beforeColon.ne_zero,
        afterColon.ne_zero, value.ne_zero, after.ne_zero]

end

theorem Value.content_ne_zero (value : Value) : 0 ∉ value.content := by
  cases value with
  | string items => exact rawText_ne_zero items
  | _ => exact Value.ne_zero _

/-! ## Documents -/

/-- A document that is an object, with the blanks around it. -/
structure ObjectDocument where
  before : Blanks
  gap : Blanks
  members : List (Member Value)
  after : Blanks

/-- The object of a document. -/
def ObjectDocument.value (document : ObjectDocument) : Value :=
  .object document.gap document.members

/-- The document as it is written. -/
def ObjectDocument.text (document : ObjectDocument) : List UInt8 :=
  document.before.bytes ++ document.value.text ++ document.after.bytes

/-! ## Members by name -/

/-- The member has the name. -/
def Member.Named (name : List UInt8) (member : Member Value) : Prop :=
  stringValue member.key = name

instance (name : List UInt8) (member : Member Value) :
    Decidable (member.Named name) :=
  inferInstanceAs (Decidable (_ = _))

/-- The value of the first member of that name. -/
def memberValue (name : List UInt8) (members : List (Member Value)) :
    Option Value :=
  (members.find? fun member => member.Named name).map Member.value

/-- The value at the end of a path of names through nested objects. -/
def valueAt : List (List UInt8) → Value → Option Value
  | [], value => some value
  | name :: path, .object _ members => memberValue name members >>= valueAt path
  | _ :: _, _ => none

end JsonSyntax
