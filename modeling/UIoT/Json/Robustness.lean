import UIoT.Json.Terminated

/-!
# The scanner on any string

What `json_get_next_object` does on text that need not be JSON.  The position it
returns is in front of the terminator or at it, except behind a string that
opens with the last byte of the text: there it lies behind the terminator, and
the loop over an object goes on with whatever bytes are there.
-/

namespace UIoT
namespace Json

/-! ## Parts of a text -/

/-- The value a scan finds in a text. -/
structure ValueScan (text : List UInt8) where
  before : List UInt8
  byte : UInt8
  rest : List UInt8
  text_eq : text = before ++ byte :: rest
  plain : ∀ byte ∈ before, ¬OpensValue byte
  opens : OpensValue byte

/-- The key and the value a scan finds in a text. -/
structure MemberScan (text : List UInt8) where
  lead : List UInt8
  key : List UInt8
  between : List UInt8
  fromColon : List UInt8
  text_eq : text = lead ++ 34 :: (key ++ 34 :: (between ++ 58 :: fromColon))
  lead_no_quote : 34 ∉ lead
  key_no_quote : 34 ∉ key
  between_no_colon : 58 ∉ between
  value : ValueScan fromColon

namespace ValueScan

variable {text : List UInt8} (scan : ValueScan text)

/-- The text from the value pointer on. -/
def valueText : List UInt8 := openedValue scan.byte scan.rest

/-- The length of the value. -/
def len : Nat := valueLen (openedType scan.byte) scan.valueText

/-- How far behind the value pointer the scan goes on. -/
def advance : Nat :=
  if openedType scan.byte = .string then scan.len + 1 else scan.len

/-- The scan ends with the quote that opens a string. -/
def Hangs : Prop := scan.byte = 34 ∧ scan.rest = []

theorem valueText_suffix : scan.valueText <:+ scan.byte :: scan.rest := by
  unfold valueText openedValue
  split
  · exact List.suffix_cons ..
  · exact List.suffix_refl _

theorem rest_suffix : scan.byte :: scan.rest <:+ text :=
  ⟨scan.before, scan.text_eq.symm⟩

theorem begins : openedType scan.byte = .string ∨ scan.valueText ≠ [] := by
  by_cases quote : scan.byte = 34
  · exact .inl (openedType_string_iff.mpr quote)
  · right
    rw [valueText, openedValue, if_neg quote]
    exact List.cons_ne_nil _ _

/-- The scan goes on in front of the terminator or at it. -/
theorem advance_le (stays : ¬scan.Hangs) :
    scan.advance ≤ scan.valueText.length := by
  obtain ⟨length, closed⟩ :=
    valueLen_le (openedType scan.byte) scan.valueText
  unfold advance
  split
  · rename_i string
    have quote := openedType_string_iff.mp string
    apply closed string
    rw [valueText, openedValue, if_pos quote]
    exact fun empty => stays ⟨quote, empty⟩
  · exact length

/-- What is found in the memory a text is at the start of. -/
def element (behind : CharPtr) : Element where
  val := scan.valueText ++ 0 :: behind
  valLen := scan.len
  valType := openedType scan.byte
  next := (scan.valueText ++ 0 :: behind).drop scan.advance

theorem element_next (stays : ¬scan.Hangs) (behind : CharPtr) :
    (scan.element behind).next =
      scan.valueText.drop scan.advance ++ 0 :: behind :=
  List.drop_append_of_le_length (scan.advance_le stays)

/-- Behind a string that opens at the end the scan goes on behind the
terminator. -/
theorem element_next_hangs (hangs : scan.Hangs) (behind : CharPtr) :
    (scan.element behind).next = behind := by
  have string := openedType_string_iff.mpr hangs.1
  have nothing : scan.valueText = [] := by
    rw [valueText, openedValue, if_pos hangs.1, hangs.2]
  have zero : scan.len = 0 := by
    rw [len, nothing, string]
    rfl
  rw [element, advance, if_pos string, zero, nothing]
  rfl

end ValueScan

/-- What is found in the memory a text is at the start of. -/
def MemberScan.entry {text : List UInt8} (scan : MemberScan text)
    (behind : CharPtr) : Entry where
  key := scan.key ++ 34 :: (scan.between ++ 58 :: scan.fromColon) ++ 0 :: behind
  keyLen := scan.key.length
  val := (scan.value.element behind).val
  valLen := (scan.value.element behind).valLen
  valType := (scan.value.element behind).valType
  next := (scan.value.element behind).next

theorem findValue_iff_scan {text : List UInt8} (nonzero : 0 ∉ text)
    (behind : CharPtr) {type : JsonType} {val : CharPtr} :
    findValue (text ++ 0 :: behind) = some (type, val) ↔
      ∃ scan : ValueScan text, type = openedType scan.byte ∧
        val = scan.valueText ++ 0 :: behind := by
  rw [findValue_terminated nonzero, Option.map_eq_some_iff]
  constructor
  · rintro ⟨⟨found, start⟩, answer, same⟩
    obtain ⟨rfl, rfl⟩ := Prod.mk.inj same
    obtain ⟨before, byte, rest, text_eq, plain, opens, rfl, rfl⟩ :=
      (findValue_eq_some_iff nonzero).mp answer
    exact ⟨⟨before, byte, rest, text_eq, plain, opens⟩, rfl, rfl⟩
  · rintro ⟨scan, rfl, rfl⟩
    exact ⟨(_, _), (findValue_eq_some_iff nonzero).mpr
      ⟨scan.before, scan.byte, scan.rest, scan.text_eq, scan.plain, scan.opens,
        rfl, rfl⟩, rfl⟩

theorem valueLen_scan {text : List UInt8} (nonzero : 0 ∉ text)
    (scan : ValueScan text) (behind : CharPtr) :
    valueLen (openedType scan.byte) (scan.valueText ++ 0 :: behind) =
      scan.len := by
  apply valueLen_terminated _ scan.begins
  intro mem
  exact nonzero (scan.rest_suffix.mem (scan.valueText_suffix.mem mem))

/-- What a call for an array finds. -/
theorem jsonGetNextElement_iff {text : List UInt8} (nonzero : 0 ∉ text)
    (behind : CharPtr) {element : Element} :
    jsonGetNextElement (text ++ 0 :: behind) = some element ↔
      ∃ scan : ValueScan text, element = scan.element behind := by
  have advances : ∀ scan : ValueScan text,
      (if openedType scan.byte = .string then
        (scan.valueText ++ 0 :: behind).drop (scan.len + 1)
        else (scan.valueText ++ 0 :: behind).drop scan.len) =
      (scan.element behind).next := by
    intro scan
    unfold ValueScan.element ValueScan.advance
    split <;> rfl
  unfold jsonGetNextElement
  constructor
  · intro answer
    split at answer
    · cases answer
    rename_i type val found
    obtain ⟨scan, rfl, rfl⟩ := (findValue_iff_scan nonzero behind).mp found
    refine ⟨scan, ?_⟩
    rw [← Option.some.inj answer, valueLen_scan nonzero, advances]
    rfl
  · rintro ⟨scan, rfl⟩
    rw [(findValue_iff_scan nonzero behind).mpr ⟨scan, rfl, rfl⟩]
    dsimp only
    rw [valueLen_scan nonzero, advances]
    rfl

/-- An entry with the value that was found. -/
def entryOf (key : CharPtr) (keyLen : Nat) (element : Element) : Entry where
  key
  keyLen
  val := element.val
  valLen := element.valLen
  valType := element.valType
  next := element.next

/-- The call for an object looks a key up and then a value behind a colon. -/
theorem jsonGetNextObject_eq_some_iff {str : CharPtr} {entry : Entry} :
    jsonGetNextObject str = some entry ↔
      ∃ opening closing colon element, strchr 34 str = some opening ∧
        strchr 34 opening.tail = some closing ∧
        strchr 58 closing = some colon ∧
        jsonGetNextElement colon = some element ∧
        entry = entryOf opening.tail
          (opening.tail.length - closing.length) element := by
  unfold jsonGetNextObject jsonGetNextElement
  constructor
  · intro answer
    split at answer
    · cases answer
    rename_i opening opened
    dsimp only at answer
    split at answer
    · cases answer
    rename_i closing closed
    split at answer
    · cases answer
    rename_i colon parted
    split at answer
    · cases answer
    rename_i type val found
    refine ⟨opening, closing, colon,
      { val
        valLen := valueLen type val
        valType := type
        next :=
          if type = .string then val.drop (valueLen type val + 1)
          else val.drop (valueLen type val) },
      opened, closed, parted, ?_, (Option.some.inj answer).symm⟩
    rw [found]
  · rintro ⟨opening, closing, colon, element, opened, closed, parted, answer,
      rfl⟩
    split at answer
    · cases answer
    rename_i type val found
    rw [← Option.some.inj answer]
    simp only [opened, closed, parted, found]
    rfl

theorem jsonGetNextElement_colon (str : CharPtr) :
    jsonGetNextElement (58 :: str) = jsonGetNextElement str := by
  rw [jsonGetNextElement, jsonGetNextElement,
    findValue_passes (by decide) (by decide)]

/-- What a call for an object finds. -/
theorem jsonGetNextObject_iff {text : List UInt8} (nonzero : 0 ∉ text)
    (behind : CharPtr) {entry : Entry} :
    jsonGetNextObject (text ++ 0 :: behind) = some entry ↔
      ∃ scan : MemberScan text, entry = scan.entry behind := by
  have quote : (34 : UInt8) ≠ 0 := by decide
  have mark : (58 : UInt8) ≠ 0 := by decide
  rw [jsonGetNextObject_eq_some_iff]
  constructor
  · rintro ⟨opening, closing, colon, element, opened, closed, parted, answer,
      rfl⟩
    rw [strchr_terminated quote nonzero, Option.map_eq_some_iff] at opened
    obtain ⟨_, first, rfl⟩ := opened
    obtain ⟨lead, afterQuote, rfl, lead_no_quote, rfl⟩ :=
      (strchr_eq_some_iff nonzero).mp first
    have nonzero : 0 ∉ afterQuote := fun mem =>
      nonzero (List.mem_append_right _ (List.mem_cons_of_mem _ mem))
    rw [List.cons_append, List.tail_cons,
      strchr_terminated quote nonzero, Option.map_eq_some_iff] at closed
    obtain ⟨_, second, rfl⟩ := closed
    obtain ⟨key, afterKey, rfl, key_no_quote, rfl⟩ :=
      (strchr_eq_some_iff nonzero).mp second
    have nonzero : 0 ∉ afterKey := fun mem =>
      nonzero (List.mem_append_right _ (List.mem_cons_of_mem _ mem))
    rw [List.cons_append, strchr, if_neg (by decide), if_neg (by decide),
      strchr_terminated mark nonzero, Option.map_eq_some_iff] at parted
    obtain ⟨_, third, rfl⟩ := parted
    obtain ⟨between, fromColon, rfl, between_no_colon, rfl⟩ :=
      (strchr_eq_some_iff nonzero).mp third
    have nonzero : 0 ∉ fromColon := fun mem =>
      nonzero (List.mem_append_right _ (List.mem_cons_of_mem _ mem))
    rw [List.cons_append, jsonGetNextElement_colon] at answer
    obtain ⟨value, rfl⟩ := (jsonGetNextElement_iff nonzero behind).mp answer
    refine ⟨⟨lead, key, between, fromColon, rfl, lead_no_quote, key_no_quote,
      between_no_colon, value⟩, ?_⟩
    have keyLen : (key ++ 34 :: (between ++ 58 :: fromColon) ++
          0 :: behind).length -
        (34 :: (between ++ 58 :: fromColon) ++ 0 :: behind).length =
        key.length := by
      rw [List.append_assoc, List.length_append, Nat.add_sub_cancel]
    change entryOf (key ++ 34 :: (between ++ 58 :: fromColon) ++ 0 :: behind) _
      _ = _
    rw [List.cons_append, List.tail_cons, keyLen]
    rfl
  · rintro ⟨⟨lead, key, between, fromColon, rfl, lead_no_quote, key_no_quote,
      between_no_colon, value⟩, rfl⟩
    simp only [List.mem_append, List.mem_cons, not_or] at nonzero
    obtain ⟨lead_zero, -, key_zero, -, between_zero, -, value_zero⟩ := nonzero
    let fromColon' := 58 :: (fromColon ++ 0 :: behind)
    let fromQuote := 34 :: (between ++ fromColon')
    have afterQuote : key ++ 34 :: (between ++ 58 :: fromColon) ++ 0 :: behind =
        key ++ fromQuote := by
      simp [fromQuote, fromColon']
    have text_eq : lead ++ 34 :: (key ++ 34 :: (between ++ 58 :: fromColon)) ++
        0 :: behind = lead ++ 34 :: (key ++ fromQuote) := by
      rw [List.append_assoc, List.cons_append, afterQuote]
    refine ⟨34 :: (key ++ fromQuote), fromQuote, fromColon',
      value.element behind, ?_, ?_, ?_, ?_, ?_⟩
    · rw [text_eq]
      exact strchr_found lead_no_quote lead_zero _
    · exact strchr_found key_no_quote key_zero _
    · rw [strchr, if_neg (by decide), if_neg (by decide)]
      exact strchr_found between_no_colon between_zero _
    · rw [jsonGetNextElement_colon]
      exact (jsonGetNextElement_iff value_zero behind).mpr ⟨value, rfl⟩
    · have keyLen : (key ++ fromQuote).length - fromQuote.length =
          key.length := by
        rw [List.length_append, Nat.add_sub_cancel]
      rw [List.tail_cons, keyLen, MemberScan.entry, afterQuote]
      rfl

/-! ## Values that do not end -/

/-- The text begins with a value, not a string, that has no end in it: marks
that are not closed, a number that runs up to the terminator, or a letter that
does not begin one of the names. -/
def Unfinished : List UInt8 → Prop
  | [] => False
  | byte :: rest =>
      (byte = 123 ∧ ¬Closes 123 125 (byte :: rest)) ∨
      (byte = 91 ∧ ¬Closes 91 93 (byte :: rest)) ∨
      ((byte = 45 ∨ 48 ≤ byte ∧ byte ≤ 57) ∧
        ∀ other ∈ rest, 48 ≤ other ∧ other ≤ 57 ∨ other = 46) ∨
      ((byte = 116 ∨ byte = 84 ∨ byte = 102 ∨ byte = 70) ∧
        ∀ name ∈ [trueNames.1, trueNames.2, falseNames.1, falseNames.2],
          ¬name <+: byte :: rest) ∨
      ((byte = 110 ∨ byte = 78) ∧
        ∀ name ∈ [nullNames.1, nullNames.2], ¬name <+: byte :: rest)

/-- Marks that are not closed have no length. -/
theorem marked_eq_zero_iff {opening closing : UInt8}
    (different : opening ≠ closing) {text : List UInt8} (nonzero : 0 ∉ text) :
    ((markedLen opening closing text 0 1).map (· + 1)).getD 0 = 0 ↔
      ¬Closes opening closing (opening :: text) := by
  constructor
  · intro zero closes
    apply markedLen_of_closes different nonzero closes []
    rw [markedLen_terminated _ _ nonzero]
    cases found : markedLen opening closing text 0 1 with
    | none => rfl
    | some len =>
        rw [found] at zero
        cases zero
  · intro unclosed
    cases found : markedLen opening closing text 0 1 with
    | none => rfl
    | some len =>
        obtain ⟨inner, rest, rfl, -, closed⟩ :=
          markedLen_sound different found
        refine absurd ⟨opening :: (inner ++ [closing]), ?_, ?_, ?_⟩ unclosed
        · exact List.cons_prefix_cons.mpr ⟨rfl, rest, by simp⟩
        · exact List.cons_ne_nil _ _
        · exact (closed.enclosed different).2

/-- A number that runs up to the terminator has no length. -/
theorem numberLen_eq_zero_iff {text : List UInt8} (nonzero : 0 ∉ text)
    {count : Nat} (counted : count ≠ 0) :
    numberLen text count = 0 ↔
      ∀ byte ∈ text, 48 ≤ byte ∧ byte ≤ 57 ∨ byte = 46 := by
  induction text generalizing count with
  | nil => exact iff_of_true rfl nofun
  | cons byte text inductionHypothesis =>
      simp only [List.mem_cons, not_or] at nonzero
      have later := inductionHypothesis nonzero.2 (Nat.succ_ne_zero count)
      rw [numberLen, if_neg (Ne.symm nonzero.1), List.forall_mem_cons, ← later]
      by_cases stops : (byte < 48 ∨ 57 < byte) ∧ byte ≠ 46
      · rw [if_pos stops]
        refine iff_of_false counted fun both => ?_
        rcases both.1 with ⟨low, high⟩ | point
        · rcases stops.1 with below | above
          · exact absurd low (UInt8.not_le.mpr below)
          · exact absurd high (UInt8.not_le.mpr above)
        · exact stops.2 point
      · rw [if_neg stops, Nat.succ_eq_add_one]
        refine ⟨fun zero => ⟨?_, zero⟩, And.right⟩
        by_contra neither
        simp only [not_or, not_and, UInt8.not_le] at neither
        apply stops
        refine ⟨?_, neither.2⟩
        by_cases low : 48 ≤ byte
        · exact .inr (neither.1 low)
        · exact .inl (UInt8.not_le.mp low)

theorem nameLen_eq_zero_iff {small capital : List UInt8} (first : 0 ∉ small)
    (second : 0 ∉ capital) (named : small ≠ []) (text : CharPtr) :
    nameLen text small capital = 0 ↔ ¬small <+: text ∧ ¬capital <+: text := by
  rw [nameLen, ← not_or, ← strncmpEq_iff first, ← strncmpEq_iff second,
    ← Bool.or_eq_true]
  split
  · rename_i answers
    refine iff_of_false ?_ (not_not_intro answers)
    exact fun zero => named (List.length_eq_zero_iff.mp zero)
  · rename_i silent
    exact iff_of_true rfl silent

theorem openedType_number {byte : UInt8}
    (digit : byte = 45 ∨ 48 ≤ byte ∧ byte ≤ 57) :
    openedType byte = .number ∧ byte ≠ 34 ∧ byte ≠ 123 ∧ byte ≠ 91 ∧
      ¬(byte = 116 ∨ byte = 84 ∨ byte = 102 ∨ byte = 70) ∧
      ¬(byte = 110 ∨ byte = 78) := by
  have other : ∀ mark : UInt8, (mark = 45 ∨ 48 ≤ mark ∧ mark ≤ 57) = False →
      byte ≠ mark := fun mark no same => no ▸ same ▸ digit
  have quote := other 34 (by decide)
  have brace := other 123 (by decide)
  have bracket := other 91 (by decide)
  refine ⟨?_, quote, brace, bracket, ?_, ?_⟩
  · rw [openedType, if_neg quote, if_neg brace, if_neg bracket, if_pos digit]
  · rintro (small | capital | small | capital)
    · exact other 116 (by decide) small
    · exact other 84 (by decide) capital
    · exact other 102 (by decide) small
    · exact other 70 (by decide) capital
  · rintro (small | capital)
    · exact other 110 (by decide) small
    · exact other 78 (by decide) capital

/-- A value, not a string, has no length when it does not end. -/
theorem valueLen_eq_zero_iff {byte : UInt8} {rest : List UInt8}
    (nonzero : 0 ∉ byte :: rest) (opens : OpensValue byte)
    (noString : byte ≠ 34) :
    valueLen (openedType byte) (byte :: rest) = 0 ↔
      Unfinished (byte :: rest) := by
  have later : 0 ∉ rest := fun mem => nonzero (List.mem_cons_of_mem _ mem)
  have falseLen : ∀ text, nameLen text falseNames.1 falseNames.2 = 0 ↔
      ¬falseNames.1 <+: text ∧ ¬falseNames.2 <+: text :=
    nameLen_eq_zero_iff (by decide) (by decide) (by decide)
  have trueLen : ∀ text, nameLen text trueNames.1 trueNames.2 = 0 ↔
      ¬trueNames.1 <+: text ∧ ¬trueNames.2 <+: text :=
    nameLen_eq_zero_iff (by decide) (by decide) (by decide)
  have nullLen : ∀ text, nameLen text nullNames.1 nullNames.2 = 0 ↔
      ¬nullNames.1 <+: text ∧ ¬nullNames.2 <+: text :=
    nameLen_eq_zero_iff (by decide) (by decide) (by decide)
  rcases opens with rfl | rfl | rfl | digit | letter | letter
  · exact absurd rfl noString
  · change ((markedLen 123 125 rest 0 1).map (· + 1)).getD 0 = 0 ↔ _
    rw [marked_eq_zero_iff (by decide) later]
    simp [Unfinished]
  · change ((markedLen 91 93 rest 0 1).map (· + 1)).getD 0 = 0 ↔ _
    rw [marked_eq_zero_iff (by decide) later]
    simp [Unfinished]
  · obtain ⟨type, -, brace, bracket, noName, noNull⟩ := openedType_number digit
    rw [type, valueLen, List.tail_cons,
      numberLen_eq_zero_iff later Nat.one_ne_zero]
    simp only [Unfinished, brace, bracket, noName, noNull, digit, false_and,
      true_and, false_or, or_false]
  · rcases letter with rfl | rfl | rfl | rfl
    · change nameLen _ trueNames.1 trueNames.2 = 0 ↔ _
      rw [trueLen]
      simp [Unfinished, falseNames, trueNames]
    · change nameLen _ trueNames.1 trueNames.2 = 0 ↔ _
      rw [trueLen]
      simp [Unfinished, falseNames, trueNames]
    · change nameLen _ falseNames.1 falseNames.2 = 0 ↔ _
      rw [falseLen]
      simp [Unfinished, falseNames, trueNames]
    · change nameLen _ falseNames.1 falseNames.2 = 0 ↔ _
      rw [falseLen]
      simp [Unfinished, falseNames, trueNames]
  · rcases letter with rfl | rfl
    · change nameLen _ nullNames.1 nullNames.2 = 0 ↔ _
      rw [nullLen]
      simp [Unfinished, nullNames]
    · change nameLen _ nullNames.1 nullNames.2 = 0 ↔ _
      rw [nullLen]
      simp [Unfinished, nullNames]

/-! ## Calls that stay in the text -/

/-- The pointer is at a byte of the text or at its terminator. -/
def Inside (text behind : List UInt8) (ptr : CharPtr) : Prop :=
  ∃ left, left <:+ text ∧ ptr = left ++ 0 :: behind

/-- The slice is in the text. -/
def SliceInside (text behind : List UInt8) (ptr : CharPtr) (len : Nat) :
    Prop :=
  ∃ left, left <:+ text ∧ ptr = left ++ 0 :: behind ∧ len ≤ left.length

/-- The pointer is behind the first byte of the text, and not behind the
terminator. -/
def MovesOn (text behind : List UInt8) (ptr : CharPtr) : Prop :=
  ∃ left, left <:+ text ∧ left ≠ text ∧ ptr = left ++ 0 :: behind

/-- A call for an object returns `NULL`, or a position further on in the text
with slices of the text. -/
def ObjectCallInside (text behind : List UInt8) : Prop :=
  ∀ entry, jsonGetNextObject (text ++ 0 :: behind) = some entry →
    MovesOn text behind entry.next ∧
      SliceInside text behind entry.key entry.keyLen ∧
      SliceInside text behind entry.val entry.valLen

/-- A call for an array returns `NULL`, or a position further on in the text
with a slice of the text. -/
def ArrayCallInside (text behind : List UInt8) : Prop :=
  ∀ element, jsonGetNextElement (text ++ 0 :: behind) = some element →
    MovesOn text behind element.next ∧
      SliceInside text behind element.val element.valLen

/-- The first value of the text is a string that opens with its last byte. -/
def HangingString (text : List UInt8) : Prop :=
  ∃ before, text = before ++ [34] ∧ ∀ byte ∈ before, ¬OpensValue byte

/-- Behind the first key and colon of the text the first value is a string that
opens with the last byte. -/
def HangingMember (text : List UInt8) : Prop :=
  ∃ lead key between fromColon,
    text = lead ++ 34 :: (key ++ 34 :: (between ++ 58 :: fromColon)) ∧
      34 ∉ lead ∧ 34 ∉ key ∧ 58 ∉ between ∧ HangingString fromColon

/-- The first value of a text is where it first opens. -/
theorem ValueScan.unique {text : List UInt8} (scan : ValueScan text)
    {before rest : List UInt8} {byte : UInt8}
    (text_eq : text = before ++ byte :: rest)
    (plain : ∀ byte ∈ before, ¬OpensValue byte) (opens : OpensValue byte) :
    scan.before = before ∧ scan.byte = byte ∧ scan.rest = rest := by
  have parts := text_eq.symm.trans scan.text_eq
  rw [List.append_eq_append_iff] at parts
  rcases parts with ⟨more, longer, parts⟩ | ⟨more, longer, parts⟩
  · cases more with
    | nil =>
        obtain ⟨rfl, rfl⟩ := List.cons.inj parts
        exact ⟨by rw [longer, List.append_nil], rfl, rfl⟩
    | cons head more =>
        obtain ⟨rfl, -⟩ := List.cons.inj parts
        have mem : byte ∈ scan.before := by simp [longer]
        exact absurd opens (scan.plain byte mem)
  · cases more with
    | nil =>
        obtain ⟨same, tail⟩ := List.cons.inj parts
        exact ⟨by rw [longer, List.append_nil], same, tail⟩
    | cons head more =>
        obtain ⟨same, -⟩ := List.cons.inj parts
        have mem : scan.byte ∈ before := by simp [longer, same]
        exact absurd scan.opens (plain scan.byte mem)

theorem ValueScan.hangs_iff {text : List UInt8} (scan : ValueScan text) :
    scan.Hangs ↔ HangingString text := by
  constructor
  · rintro ⟨quote, nothing⟩
    refine ⟨scan.before, ?_, scan.plain⟩
    rw [← quote, ← nothing]
    exact scan.text_eq
  · rintro ⟨before, text_eq, plain⟩
    obtain ⟨-, byte, rest⟩ := scan.unique text_eq plain (by decide)
    exact ⟨byte, rest⟩

theorem HangingString.scan {text : List UInt8} (hanging : HangingString text) :
    ∃ scan : ValueScan text, scan.Hangs := by
  obtain ⟨before, text_eq, plain⟩ := hanging
  exact ⟨⟨before, 34, [], text_eq, plain, by decide⟩, rfl, rfl⟩

/-- The value slice of a call is in the text. -/
theorem ValueScan.slice_inside {text : List UInt8} (scan : ValueScan text)
    (behind : CharPtr) :
    SliceInside text behind (scan.element behind).val
      (scan.element behind).valLen :=
  ⟨scan.valueText, scan.valueText_suffix.trans scan.rest_suffix, rfl,
    (valueLen_le _ _).1⟩

/-- Bytes behind the terminator are not in the text. -/
theorem not_inside_behind (text behind : List UInt8) :
    ¬Inside text behind behind := by
  rintro ⟨left, -, same⟩
  have length := congrArg List.length same
  rw [List.length_append, List.length_cons] at length
  omega

theorem MovesOn.inside {text behind : List UInt8} {ptr : CharPtr}
    (movesOn : MovesOn text behind ptr) : Inside text behind ptr := by
  obtain ⟨left, isSuffix, -, same⟩ := movesOn
  exact ⟨left, isSuffix, same⟩

/-- A value that does not end has begun. -/
theorem Unfinished.opens {text : List UInt8} (unfinished : Unfinished text) :
    ∃ byte rest, text = byte :: rest ∧ OpensValue byte ∧ byte ≠ 34 := by
  cases text with
  | nil => exact unfinished.elim
  | cons byte rest =>
      refine ⟨byte, rest, rfl, ?_⟩
      unfold OpensValue
      rcases unfinished with ⟨rfl, -⟩ | ⟨rfl, -⟩ | ⟨digit, -⟩ | ⟨letter, -⟩ |
        ⟨letter, -⟩
      · decide
      · decide
      · exact ⟨.inr (.inr (.inr (.inl digit))), (openedType_number digit).2.1⟩
      · refine ⟨.inr (.inr (.inr (.inr (.inl letter)))), ?_⟩
        rintro rfl
        revert letter
        decide
      · refine ⟨.inr (.inr (.inr (.inr (.inr letter)))), ?_⟩
        rintro rfl
        revert letter
        decide

/-- Where the scan stays at the beginning of the text, a value begins there that
does not end. -/
theorem ValueScan.moves_iff {text : List UInt8} (nonzero : 0 ∉ text)
    (scan : ValueScan text) :
    scan.valueText.drop scan.advance ≠ text ↔ ¬Unfinished text := by
  rw [not_iff_not]
  constructor
  · intro stays
    have length := congrArg List.length stays
    have shorter := scan.valueText_suffix.length_le
    have whole := congrArg List.length scan.text_eq
    rw [List.length_drop] at length
    rw [List.length_append] at whole
    rw [List.length_cons] at shorter whole
    have first : scan.before = [] :=
      List.length_eq_zero_iff.mp (by omega)
    have text_eq : text = scan.byte :: scan.rest := by
      conv => lhs; rw [scan.text_eq, first, List.nil_append]
    have noString : scan.byte ≠ 34 := by
      intro quote
      rw [valueText, openedValue, if_pos quote] at length
      omega
    have zero : scan.len = 0 := by
      have string : openedType scan.byte ≠ .string := fun string =>
        noString (openedType_string_iff.mp string)
      rw [advance, if_neg string] at length
      omega
    rw [len, valueText, openedValue, if_neg noString] at zero
    rw [text_eq]
    exact (valueLen_eq_zero_iff (text_eq ▸ nonzero) scan.opens noString).mp zero
  · intro unfinished
    obtain ⟨byte, rest, parts, opens, noString⟩ := unfinished.opens
    have whole : text = [] ++ byte :: rest := parts
    obtain ⟨-, sameByte, sameRest⟩ := scan.unique whole
      (List.forall_mem_nil _) opens
    have zero := (valueLen_eq_zero_iff (parts ▸ nonzero) opens
      noString).mpr (parts ▸ unfinished)
    have string : openedType byte ≠ .string := fun string =>
      noString (openedType_string_iff.mp string)
    rw [advance, len, valueText, openedValue, sameByte, sameRest,
      if_neg noString, if_neg string, zero, List.drop_zero]
    exact parts.symm

/-- When a call for an array stays in the text. -/
theorem arrayCallInside_iff {text : List UInt8} (nonzero : 0 ∉ text)
    (behind : CharPtr) :
    ArrayCallInside text behind ↔
      ¬HangingString text ∧ ¬Unfinished text := by
  have found : ∀ scan : ValueScan text,
      jsonGetNextElement (text ++ 0 :: behind) = some (scan.element behind) :=
    fun scan => (jsonGetNextElement_iff nonzero behind).mpr ⟨scan, rfl⟩
  constructor
  · intro inside
    have stays : ¬HangingString text := by
      intro hanging
      obtain ⟨scan, hangs⟩ := hanging.scan
      have movesOn := (inside _ (found scan)).1
      rw [scan.element_next_hangs hangs] at movesOn
      exact not_inside_behind text behind movesOn.inside
    refine ⟨stays, fun unfinished => ?_⟩
    obtain ⟨byte, rest, parts, opens, -⟩ := unfinished.opens
    let scan : ValueScan text := ⟨[], byte, rest, parts, nofun, opens⟩
    obtain ⟨left, -, moved, same⟩ := (inside _ (found scan)).1
    rw [scan.element_next fun hangs => stays (scan.hangs_iff.mp hangs)] at same
    have left_eq := List.append_cancel_right same
    exact (scan.moves_iff nonzero).mp (left_eq ▸ moved) unfinished
  · rintro ⟨stays, finished⟩ element answer
    obtain ⟨scan, rfl⟩ := (jsonGetNextElement_iff nonzero behind).mp answer
    have hangs : ¬scan.Hangs := fun hangs => stays (scan.hangs_iff.mp hangs)
    have isSuffix := scan.valueText_suffix.trans scan.rest_suffix
    exact ⟨⟨_, (List.drop_suffix ..).trans isSuffix,
      (scan.moves_iff nonzero).mpr finished, scan.element_next hangs behind⟩,
      scan.slice_inside behind⟩

theorem MemberScan.fromColon_suffix {text : List UInt8}
    (scan : MemberScan text) : scan.fromColon <:+ text := by
  have parts : text = (scan.lead ++ 34 :: (scan.key ++
      34 :: (scan.between ++ [58]))) ++ scan.fromColon := by
    simpa using scan.text_eq
  exact ⟨_, parts.symm⟩

theorem MemberScan.fromColon_length {text : List UInt8}
    (scan : MemberScan text) : scan.fromColon.length + 3 ≤ text.length := by
  have length := congrArg List.length scan.text_eq
  simp only [List.length_append, List.length_cons] at length
  omega

theorem MemberScan.hanging {text : List UInt8} (scan : MemberScan text)
    (hangs : scan.value.Hangs) : HangingMember text :=
  ⟨scan.lead, scan.key, scan.between, scan.fromColon, scan.text_eq,
    scan.lead_no_quote, scan.key_no_quote, scan.between_no_colon,
    scan.value.hangs_iff.mp hangs⟩

theorem HangingMember.scan {text : List UInt8}
    (hanging : HangingMember text) :
    ∃ scan : MemberScan text, scan.value.Hangs := by
  obtain ⟨lead, key, between, fromColon, text_eq, first, second, third,
    string⟩ := hanging
  obtain ⟨value, hangs⟩ := string.scan
  exact ⟨⟨lead, key, between, fromColon, text_eq, first, second, third, value⟩,
    hangs⟩

/-- A call that does not hang goes on further on in the text. -/
theorem MemberScan.next_inside {text : List UInt8} (scan : MemberScan text)
    (stays : ¬scan.value.Hangs) (behind : CharPtr) :
    MovesOn text behind (scan.entry behind).next := by
  have isSuffix := (scan.value.valueText_suffix.trans
    scan.value.rest_suffix).trans scan.fromColon_suffix
  refine ⟨_, (List.drop_suffix ..).trans isSuffix, ?_,
    scan.value.element_next stays behind⟩
  intro same
  have length := congrArg List.length same
  have shorter := (scan.value.valueText_suffix.trans
    scan.value.rest_suffix).length_le
  have whole := scan.fromColon_length
  rw [List.length_drop] at length
  omega

/-- When a call for an object stays in the text. -/
theorem objectCallInside_iff {text : List UInt8} (nonzero : 0 ∉ text)
    (behind : CharPtr) :
    ObjectCallInside text behind ↔ ¬HangingMember text := by
  constructor
  · intro inside hanging
    obtain ⟨scan, hangs⟩ := hanging.scan
    have found := (jsonGetNextObject_iff nonzero behind).mpr ⟨scan, rfl⟩
    have movesOn := (inside _ found).1
    rw [MemberScan.entry, scan.value.element_next_hangs hangs] at movesOn
    exact not_inside_behind text behind movesOn.inside
  · intro stays entry answer
    obtain ⟨scan, rfl⟩ := (jsonGetNextObject_iff nonzero behind).mp answer
    have hangs : ¬scan.value.Hangs := fun hangs => stays (scan.hanging hangs)
    refine ⟨scan.next_inside hangs behind, ?_, ?_⟩
    · refine ⟨scan.key ++ 34 :: (scan.between ++ 58 :: scan.fromColon), ?_,
        rfl, ?_⟩
      · have parts : text = (scan.lead ++ [34]) ++ (scan.key ++
            34 :: (scan.between ++ 58 :: scan.fromColon)) := by
          simpa using scan.text_eq
        exact ⟨_, parts.symm⟩
      · rw [List.length_append]
        exact Nat.le_add_right ..
    · obtain ⟨left, isSuffix, slice⟩ := scan.value.slice_inside behind
      exact ⟨left, isSuffix.trans scan.fromColon_suffix, slice⟩

/-! ## The loop -/

/-- The positions at which the loop of `json_object_for_each_kv` tests a byte,
from one of them on. -/
def positionsFrom : (turns : Nat) → (pos : CharPtr) → List CharPtr
  | 0, pos => [pos]
  | turns + 1, pos =>
      pos ::
        if deref pos = 0 then []
        else
          match jsonGetNextObject pos with
          | none => []
          | some entry => positionsFrom turns entry.next

/-- The positions of `json_object_for_each_kv`. -/
def loopPositions (str : CharPtr) : List CharPtr :=
  match jsonGetObject str with
  | none => []
  | some pos => positionsFrom pos.length pos

/-- The loop tests bytes of the text or its terminator only, and ends after as
many turns as the text has bytes. -/
def LoopInside (text behind : List UInt8) : Prop :=
  (∀ pos ∈ loopPositions (text ++ 0 :: behind), Inside text behind pos) ∧
    (jsonObjectForEachKv (text ++ 0 :: behind)).length ≤ text.length

/-- From a position on the loop stays in the text when it does not hang. -/
theorem positionsFrom_inside {text behind : List UInt8} (turns : Nat)
    {left : List UInt8} (isSuffix : left <:+ text) (nonzero : 0 ∉ text)
    (enough : left.length < turns)
    (stays : ∀ other, other <:+ text →
      other ++ 0 :: behind ∈ positionsFrom turns (left ++ 0 :: behind) →
        ¬HangingMember other) :
    (∀ pos ∈ positionsFrom turns (left ++ 0 :: behind),
        Inside text behind pos) ∧
      (entriesFrom turns (left ++ 0 :: behind)).length ≤ left.length := by
  induction turns generalizing left with
  | zero => exact absurd enough (Nat.not_lt_zero _)
  | succ turns inductionHypothesis =>
      have here : Inside text behind (left ++ 0 :: behind) :=
        ⟨left, isSuffix, rfl⟩
      have nonzero_left : 0 ∉ left := fun mem => nonzero (isSuffix.mem mem)
      rw [positionsFrom] at stays ⊢
      rw [entriesFrom]
      split
      · exact ⟨List.forall_mem_singleton.mpr here, Nat.zero_le _⟩
      · rename_i visible
        rw [if_neg visible] at stays
        cases found : jsonGetNextObject (left ++ 0 :: behind) with
        | none =>
            exact ⟨List.forall_mem_singleton.mpr here, Nat.zero_le _⟩
        | some entry =>
            rw [found] at stays
            have finished := stays left isSuffix (List.mem_cons_self ..)
            have inside := (objectCallInside_iff nonzero_left behind).mpr
              finished
            obtain ⟨next, nextSuffix, moved, next_eq⟩ := (inside entry found).1
            have shorter : next.length < left.length := by
              apply Nat.lt_of_le_of_ne nextSuffix.length_le
              exact fun same => moved (nextSuffix.eq_of_length same)
            dsimp only at stays ⊢
            rw [next_eq] at stays ⊢
            obtain ⟨positions, turnsLeft⟩ := inductionHypothesis
              (nextSuffix.trans isSuffix) (by omega)
              fun other suffix mem => stays other suffix
                (List.mem_cons_of_mem _ mem)
            refine ⟨List.forall_mem_cons.mpr ⟨here, positions⟩, ?_⟩
            rw [List.length_cons]
            omega

theorem mem_positionsFrom (turns : Nat) (pos : CharPtr) :
    pos ∈ positionsFrom turns pos := by
  cases turns with
  | zero => exact List.mem_singleton_self pos
  | succ turns => exact List.mem_cons_self ..

/-- Where the loop hangs it tests a byte behind the terminator. -/
theorem positionsFrom_hanging {left behind : List UInt8} (nonzero : 0 ∉ left)
    (hanging : HangingMember left) {turns : Nat} {pos : CharPtr}
    (enough : pos.length ≤ turns)
    (comes : left ++ 0 :: behind ∈ positionsFrom turns pos) :
    behind ∈ positionsFrom turns pos := by
  obtain ⟨scan, hangs⟩ := hanging.scan
  have found := (jsonGetNextObject_iff nonzero behind).mpr ⟨scan, rfl⟩
  have next : (scan.entry behind).next = behind :=
    scan.value.element_next_hangs hangs behind
  have nonempty : left ≠ [] := by
    rintro rfl
    have whole := scan.fromColon_length
    rw [List.length_nil] at whole
    omega
  have visible : deref (left ++ 0 :: behind) ≠ 0 := by
    rw [deref_append nonempty]
    cases left with
    | nil => exact absurd rfl nonempty
    | cons byte left => exact fun zero => nonzero (zero ▸ List.mem_cons_self ..)
  induction turns generalizing pos with
  | zero =>
      rw [positionsFrom, List.mem_singleton] at comes
      rw [← comes, List.length_append, List.length_cons] at enough
      omega
  | succ turns inductionHypothesis =>
      rw [positionsFrom] at comes ⊢
      rcases List.mem_cons.mp comes with same | later
      · rw [← same, if_neg visible, found]
        dsimp only
        rw [next]
        exact List.mem_cons_of_mem _ (mem_positionsFrom turns behind)
      · apply List.mem_cons_of_mem
        split at later
        · cases later
        · rename_i visible
          rw [if_neg visible]
          cases answer : jsonGetNextObject pos with
          | none =>
              rw [answer] at later
              cases later
          | some entry =>
              rw [answer] at later
              have shorter := jsonGetNextObject_length answer
              exact inductionHypothesis (by omega) later

/-- The object of a text begins in it, whatever lies behind. -/
theorem jsonGetObject_terminated (text behind : List UInt8) :
    (jsonGetObject (text ++ 0 :: behind) = none ∧
        jsonGetObject (text ++ [0]) = none) ∨
      ∃ left, left <:+ text ∧
        jsonGetObject (text ++ 0 :: behind) = some (left ++ 0 :: behind) ∧
        jsonGetObject (text ++ [0]) = some (left ++ [0]) := by
  induction text with
  | nil => exact .inl ⟨rfl, rfl⟩
  | cons byte text inductionHypothesis =>
      rw [List.cons_append, List.cons_append, jsonGetObject, jsonGetObject]
      split
      · exact .inl ⟨rfl, rfl⟩
      split
      · rcases inductionHypothesis with nothing | ⟨left, isSuffix, others⟩
        · exact .inl nothing
        · exact .inr ⟨left, isSuffix.trans (List.suffix_cons ..), others⟩
      split
      · exact .inr ⟨byte :: text, List.suffix_refl _, rfl, rfl⟩
      · exact .inl ⟨rfl, rfl⟩

/-- The loop stays in the text when it does not hang anywhere. -/
theorem loopInside_iff {text : List UInt8} (nonzero : 0 ∉ text)
    (behind : CharPtr) :
    LoopInside text behind ↔
      ∀ left, left <:+ text →
        left ++ 0 :: behind ∈ loopPositions (text ++ 0 :: behind) →
          ¬HangingMember left := by
  constructor
  · rintro ⟨inside, -⟩ left isSuffix comes hanging
    have nonzero_left : 0 ∉ left := fun mem => nonzero (isSuffix.mem mem)
    apply not_inside_behind text behind
    apply inside
    unfold loopPositions at comes ⊢
    cases begins : jsonGetObject (text ++ 0 :: behind) with
    | none =>
        rw [begins] at comes
        cases comes
    | some pos =>
        rw [begins] at comes
        exact positionsFrom_hanging nonzero_left hanging (Nat.le_refl _) comes
  · intro stays
    unfold LoopInside loopPositions jsonObjectForEachKv at *
    rcases jsonGetObject_terminated text behind with
      ⟨nothing, -⟩ | ⟨left, isSuffix, begins, -⟩
    · rw [nothing]
      exact ⟨nofun, Nat.zero_le _⟩
    · rw [begins] at stays ⊢
      have enough : left.length < (left ++ 0 :: behind).length := by
        rw [List.length_append, List.length_cons]
        omega
      obtain ⟨positions, turns⟩ :=
        positionsFrom_inside _ isSuffix nonzero enough stays
      exact ⟨positions, Nat.le_trans turns isSuffix.length_le⟩

theorem HangingMember.last {text : List UInt8}
    (hanging : HangingMember text) : text.getLast? = some 34 := by
  obtain ⟨lead, key, between, fromColon, rfl, -, -, -, before, rfl, -⟩ :=
    hanging
  have parts : lead ++ 34 :: (key ++ 34 :: (between ++ 58 ::
      (before ++ [34]))) = (lead ++ 34 :: (key ++ 34 :: (between ++ 58 ::
        before))) ++ [34] := by
    simp
  rw [parts, List.getLast?_concat]

/-- A text that does not end with a quote hangs nowhere. -/
theorem not_hanging_of_last {text left : List UInt8}
    (last : text.getLast? ≠ some 34) (isSuffix : left <:+ text) :
    ¬HangingMember left := by
  intro hanging
  obtain ⟨front, rfl⟩ := isSuffix
  apply last
  rw [List.getLast?_append, hanging.last]
  rfl

/-- For any terminated string: a call for an object from a position in it stays
in it exactly when it does not hang, a call for an array when in addition no
value begins at the position that does not end, and the loop exactly when none
of the positions it comes to hangs. -/
theorem scanner_inside_iff {text : List UInt8} (nonzero : 0 ∉ text)
    (behind : CharPtr) :
    (∀ left, left <:+ text →
      (ObjectCallInside left behind ↔ ¬HangingMember left) ∧
        (ArrayCallInside left behind ↔
          ¬HangingString left ∧ ¬Unfinished left)) ∧
      (LoopInside text behind ↔
        ∀ left, left <:+ text →
          left ++ 0 :: behind ∈ loopPositions (text ++ 0 :: behind) →
            ¬HangingMember left) := by
  refine ⟨fun left isSuffix => ?_, loopInside_iff nonzero behind⟩
  have nonzero_left : 0 ∉ left := fun mem => nonzero (isSuffix.mem mem)
  exact ⟨objectCallInside_iff nonzero_left behind,
    arrayCallInside_iff nonzero_left behind⟩

/-- On `{"a":7` the loop stays in the text, though the number does not end. -/
theorem scanner_inside_iff_number :
    LoopInside [123, 34, 97, 34, 58, 55] [9] := by
  apply (scanner_inside_iff (by decide) [9]).2.mpr
  intro left isSuffix _
  exact not_hanging_of_last (by decide) isSuffix

/-- The text `{"a":"`: the position returned is behind the terminator, and the
loop reads on there. -/
theorem hanging_broken :
    (jsonGetNextObject ([123, 34, 97, 34, 58, 34] ++ 0 :: [34, 98, 34, 58,
        55, 44])).map Entry.next = some [34, 98, 34, 58, 55, 44] ∧
      (jsonObjectForEachKv ([123, 34, 97, 34, 58, 34] ++ 0 :: [34, 98, 34, 58,
        55, 44])).map (fun entry => entry.key.take entry.keyLen) =
        [[97], [98]] ∧
      ¬LoopInside [123, 34, 97, 34, 58, 34] [34, 98, 34, 58, 55, 44] := by
  refine ⟨by decide, by decide, fun inside => ?_⟩
  exact not_inside_behind _ _ (inside.1 _ (by decide))

end Json
end UIoT
