import UIoT.Library.JsonSyntax

/-!
# What a JSON text means, and what is written for it

A writer that inserts the bytes of its strings as they are writes a text of the
same meaning exactly if no string needs an escape and every number is one of
the grammar.  In any other text for the meaning the escapes take more room than
the bytes they stand for.
-/

namespace JsonSyntax

mutual

/-- What a value means to its reader.  A number is the text of its token, and an
embedded value its whole text with the blanks around it. -/
inductive Meaning
  | string (bytes : List UInt8)
  | number (bytes : List UInt8)
  | null
  | embedded (text : List UInt8)
  | object (fields : Fields)

/-- The fields of an object in their order. -/
inductive Fields
  | nil
  | cons (name : List UInt8) (meaning : Meaning) (rest : Fields)

end

mutual

/-- What is written without escapes. -/
def Meaning.written : Meaning → List UInt8
  | .string bytes => 34 :: (bytes ++ [34])
  | .number bytes => bytes
  | .null => Literal.null.bytes
  | .embedded text => text
  | .object fields => 123 :: (fields.written ++ [125])

/-- The fields as they are written, a comma between any two of them. -/
def Fields.written : Fields → List UInt8
  | .nil => []
  | .cons name meaning .nil => 34 :: (name ++ 34 :: 58 :: meaning.written)
  | .cons name meaning (.cons next following rest) =>
      34 :: (name ++ 34 :: 58 :: meaning.written) ++
        44 :: (Fields.cons next following rest).written

end

mutual

/-- The value between the blanks has the meaning. -/
def Meaning.Of : Meaning → Blanks → Value → Blanks → Prop
  | .string bytes, _, value, _ =>
      ∃ items, value = .string items ∧ stringValue items = bytes
  | .number bytes, _, value, _ =>
      ∃ number : Number, value = .number number ∧ number.bytes = bytes
  | .null, _, value, _ => value = .literal .null
  | .embedded text, before, value, after =>
      before.bytes ++ value.text ++ after.bytes = text
  | .object fields, _, value, _ =>
      ∃ gap members, value = .object gap members ∧ fields.Of members

/-- The members are the fields. -/
def Fields.Of : Fields → List (Member Value) → Prop
  | .nil, members => members = []
  | .cons name meaning rest, members =>
      ∃ member others, members = member :: others ∧
        stringValue member.key = name ∧
        meaning.Of member.afterColon member.value member.after ∧
        rest.Of others

end

/-- The byte stands for itself in a string. -/
def PlainByte (byte : UInt8) : Prop := 32 ≤ byte ∧ byte ≠ 34 ∧ byte ≠ 92

instance (byte : UInt8) : Decidable (PlainByte byte) :=
  inferInstanceAs (Decidable (_ ∧ _ ∧ _))

/-- The text is a value of the grammar with blanks around it. -/
def WellFormed (text : List UInt8) : Prop :=
  ∃ (before : Blanks) (value : Value) (after : Blanks),
    before.bytes ++ value.text ++ after.bytes = text

mutual

/-- No string needs an escape, and what is written as it is is a text of the
grammar. -/
def Meaning.Plain : Meaning → Prop
  | .string bytes => ∀ byte ∈ bytes, PlainByte byte
  | .number bytes => ∃ number : Number, number.bytes = bytes
  | .null => True
  | .embedded text => WellFormed text
  | .object fields => fields.Plain

def Fields.Plain : Fields → Prop
  | .nil => True
  | .cons name meaning rest =>
      (∀ byte ∈ name, PlainByte byte) ∧ meaning.Plain ∧ rest.Plain

end

/-! ## Strings -/

theorem utf8_length (codePoint : Nat) : (utf8 codePoint).length ≤ 4 := by
  unfold utf8
  rw [String.length_utf8EncodeChar]
  exact Char.utf8Size_le_four _

/-- A string stands for as many bytes as it is written with at most. -/
theorem stringValue_length (items : List StringItem) :
    (stringValue items).length ≤ (rawText items).length ∧
      ((rawText items).length ≤ (stringValue items).length →
        ∀ byte ∈ stringValue items, PlainByte byte) := by
  have cons_length : ∀ (item : StringItem) (items : List StringItem),
      (rawText (item :: items)).length =
        item.bytes.length + (rawText items).length := fun item items => by
    rw [rawText, List.flatMap_cons, List.length_append, rawText]
  have six : ∀ a b c d : HexDigit,
      (StringItem.unicode a b c d).bytes.length = 6 := fun _ _ _ _ => rfl
  induction items using stringValue.induct with
  | case1 => exact ⟨Nat.le_refl _, fun _ => by simp [stringValue]⟩
  | case2 byte allowed items inductionHypothesis =>
      have one : (StringItem.plain byte allowed).bytes.length = 1 := rfl
      rw [stringValue, cons_length, List.length_cons, one]
      refine ⟨by omega, fun equal => List.forall_mem_cons.mpr
        ⟨allowed, inductionHypothesis.2 (by omega)⟩⟩
  | case3 code items inductionHypothesis =>
      have two : (StringItem.escape code).bytes.length = 2 := rfl
      rw [stringValue, cons_length, List.length_cons, two]
      exact ⟨by omega, fun equal => absurd equal (by omega)⟩
  | case4 a b c d e f g h items high low pair inductionHypothesis =>
      have short := utf8_length (0x10000 +
        (codeUnit a b c d - 0xd800) * 0x400 + (codeUnit e f g h - 0xdc00))
      rw [stringValue, if_pos pair, cons_length, cons_length,
        List.length_append, six, six]
      exact ⟨by omega, fun equal => absurd equal (by omega)⟩
  | case5 a b c d e f g h items high low single inductionHypothesis =>
      have short := utf8_length (codeUnit a b c d)
      rw [stringValue, if_neg single, cons_length, List.length_append, six]
      exact ⟨by omega, fun equal => absurd equal (by omega)⟩
  | case6 a b c d items last inductionHypothesis =>
      have short := utf8_length (codeUnit a b c d)
      rw [stringValue, cons_length, List.length_append, six]
      · exact ⟨by omega, fun equal => absurd equal (by omega)⟩
      · exact last

/-- The items of a string that needs no escape. -/
def plainItems : (bytes : List UInt8) → (∀ byte ∈ bytes, PlainByte byte) →
    List StringItem
  | [], _ => []
  | byte :: bytes, plain =>
      .plain byte (plain byte (List.mem_cons_self ..)) ::
        plainItems bytes fun other mem =>
          plain other (List.mem_cons_of_mem _ mem)

theorem rawText_plainItems {bytes : List UInt8}
    (plain : ∀ byte ∈ bytes, PlainByte byte) :
    rawText (plainItems bytes plain) = bytes := by
  induction bytes with
  | nil => rfl
  | cons byte bytes inductionHypothesis =>
      rw [plainItems, rawText, List.flatMap_cons, ← rawText,
        inductionHypothesis]
      rfl

theorem stringValue_plainItems {bytes : List UInt8}
    (plain : ∀ byte ∈ bytes, PlainByte byte) :
    stringValue (plainItems bytes plain) = bytes := by
  induction bytes with
  | nil => simp [plainItems, stringValue]
  | cons byte bytes inductionHypothesis =>
      simp only [plainItems, stringValue, inductionHypothesis]

theorem exists_items {bytes : List UInt8}
    (plain : ∀ byte ∈ bytes, PlainByte byte) :
    ∃ items, rawText items = bytes ∧ stringValue items = bytes :=
  ⟨plainItems bytes plain, rawText_plainItems plain,
    stringValue_plainItems plain⟩

/-! ## Lengths -/

/-- The length of members is that of the first and that of the others. -/
theorem membersText_length (member next : Member Value)
    (others : List (Member Value)) :
    (membersText (member :: next :: others)).length =
      (memberText member).length + 1 + member.between.bytes.length +
        (membersText (next :: others)).length := by
  rw [membersText, List.length_append, List.length_cons, List.length_append]
  omega

theorem memberText_length (member : Member Value) :
    (memberText member).length =
      3 + (rawText member.key).length + member.beforeColon.bytes.length +
        (member.afterColon.bytes ++ member.value.text ++
          member.after.bytes).length := by
  rw [memberText_eq]
  simp only [List.length_cons, List.length_append]
  omega

mutual

/-- A text is no shorter than what is written for its meaning without escapes,
and if it is no longer nothing needs an escape. -/
theorem Meaning.Of.length {before after : Blanks} {value : Value} :
    {meaning : Meaning} → meaning.Of before value after →
      meaning.written.length ≤
          (before.bytes ++ value.text ++ after.bytes).length ∧
        ((before.bytes ++ value.text ++ after.bytes).length ≤
          meaning.written.length → meaning.Plain)
  | .string bytes, ⟨items, same, stands⟩ => by
      obtain ⟨shorter, plain⟩ := stringValue_length items
      subst same stands
      rw [Meaning.written, Meaning.Plain, Value.text]
      simp only [List.length_cons, List.length_append, List.length_nil]
      exact ⟨by omega, fun equal => plain (by omega)⟩
  | .number bytes, ⟨number, same, written⟩ => by
      subst same written
      rw [Meaning.written, Meaning.Plain, Value.text]
      simp only [List.length_append]
      exact ⟨by omega, fun _ => ⟨number, rfl⟩⟩
  | .null, same => by
      have same : value = .literal .null := same
      subst same
      rw [Meaning.written, Meaning.Plain, Value.text]
      simp only [List.length_append]
      exact ⟨by omega, fun _ => trivial⟩
  | .embedded text, same => by
      have same : before.bytes ++ value.text ++ after.bytes = text := same
      rw [Meaning.written, Meaning.Plain, same]
      exact ⟨Nat.le_refl _, fun _ => ⟨before, value, after, same⟩⟩
  | .object fields, ⟨gap, members, same, each⟩ => by
      obtain ⟨shorter, plain⟩ := Fields.Of.length each
      subst same
      rw [Meaning.written, Meaning.Plain, Value.text]
      simp only [List.length_cons, List.length_append, List.length_nil]
      exact ⟨by omega, fun equal => plain (by omega)⟩

theorem Fields.Of.length : {fields : Fields} → {members : List (Member Value)} →
    fields.Of members →
      fields.written.length ≤ (membersText members).length ∧
        ((membersText members).length ≤ fields.written.length → fields.Plain)
  | .nil, members, empty => by
      have empty : members = [] := empty
      subst empty
      exact ⟨Nat.le_refl _, fun _ => trivial⟩
  | .cons name meaning .nil, members, ⟨member, others, same, named, of, rest⟩ =>
      by
        have empty : others = [] := rest
        subst same named empty
        obtain ⟨keyShorter, keyPlain⟩ := stringValue_length member.key
        obtain ⟨shorter, plain⟩ := Meaning.Of.length of
        rw [Fields.written, membersText, memberText_length]
        simp only [List.length_cons, List.length_append] at shorter plain ⊢
        exact ⟨by omega, fun equal =>
          ⟨keyPlain (by omega), plain (by omega), trivial⟩⟩
  | .cons name meaning (.cons next following rest), members,
      ⟨member, others, same, named, of, ofRest⟩ => by
        obtain ⟨second, others, rfl, -⟩ := id ofRest
        subst same named
        obtain ⟨keyShorter, keyPlain⟩ := stringValue_length member.key
        obtain ⟨shorter, plain⟩ := Meaning.Of.length of
        obtain ⟨restShorter, restPlain⟩ := Fields.Of.length ofRest
        rw [Fields.written, membersText_length, memberText_length]
        simp only [List.length_cons, List.length_append] at shorter plain ⊢
        exact ⟨by omega, fun equal =>
          ⟨keyPlain (by omega), plain (by omega), restPlain (by omega)⟩⟩

end

/-! ## Writing -/

mutual

/-- Where nothing needs an escape a value of the meaning is written. -/
theorem Meaning.Plain.exists_of : {meaning : Meaning} → meaning.Plain →
    ∃ before value after, meaning.Of before value after ∧
      before.bytes ++ value.text ++ after.bytes = meaning.written
  | .string bytes, plain => by
      obtain ⟨items, raw, stands⟩ := exists_items plain
      refine ⟨.none, .string items, .none, ⟨items, rfl, stands⟩, ?_⟩
      simp [Blanks.none, Meaning.written, Value.text, raw]
  | .number bytes, ⟨number, written⟩ => by
      refine ⟨.none, .number number, .none, ⟨number, rfl, written⟩, ?_⟩
      simp [Blanks.none, Meaning.written, Value.text, written]
  | .null, _ => by
      refine ⟨.none, .literal .null, .none, rfl, ?_⟩
      simp [Blanks.none, Meaning.written, Value.text]
  | .embedded text, ⟨before, value, after, same⟩ =>
      ⟨before, value, after, same, same⟩
  | .object fields, plain => by
      obtain ⟨members, of, written⟩ := Fields.Plain.exists_of plain
      refine ⟨.none, .object .none members, .none,
        ⟨.none, members, rfl, of⟩, ?_⟩
      simp [Blanks.none, Meaning.written, Value.text, written]

theorem Fields.Plain.exists_of : {fields : Fields} → fields.Plain →
    ∃ members, fields.Of members ∧ membersText members = fields.written
  | .nil, _ => ⟨[], rfl, rfl⟩
  | .cons name meaning .nil, ⟨named, plain, _⟩ => by
      obtain ⟨items, raw, stands⟩ := exists_items named
      obtain ⟨before, value, after, of, written⟩ :=
        Meaning.Plain.exists_of plain
      refine ⟨[⟨items, .none, before, value, after, .none⟩],
        ⟨_, [], rfl, stands, of, rfl⟩, ?_⟩
      rw [membersText, memberText, Fields.written, ← written, raw]
      simp [Blanks.none]
  | .cons name meaning (.cons next following rest), ⟨named, plain, others⟩ => by
      obtain ⟨items, raw, stands⟩ := exists_items named
      obtain ⟨before, value, after, of, written⟩ :=
        Meaning.Plain.exists_of plain
      obtain ⟨members, ofRest, restWritten⟩ := Fields.Plain.exists_of others
      obtain ⟨second, following, rfl, -⟩ := id ofRest
      refine ⟨⟨items, .none, before, value, after, .none⟩ :: second ::
        following, ⟨_, _, rfl, stands, of, ofRest⟩, ?_⟩
      rw [membersText, memberText, Fields.written, ← written, raw, restWritten]
      simp [Blanks.none]

end

/-- What is written without escapes has the meaning, for some reading of it,
exactly if nothing needs an escape. -/
theorem written_of_iff (meaning : Meaning) :
    (∃ before value after, meaning.Of before value after ∧
        before.bytes ++ value.text ++ after.bytes = meaning.written) ↔
      meaning.Plain := by
  constructor
  · rintro ⟨before, value, after, of, written⟩
    exact of.length.2 (Nat.le_of_eq (congrArg List.length written))
  · exact Meaning.Plain.exists_of

end JsonSyntax
