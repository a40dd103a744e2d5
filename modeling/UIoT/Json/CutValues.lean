import UIoT.Json.KeyPaths

/-!
# Values that are cut short

The scanner reads a value that stands in a cut text in whole, or gives it no
length; then it goes on inside the value.
-/

namespace UIoT
namespace Json

open JsonSyntax

/-! ## Beginnings of a text -/

/-- The beginning of two texts is one of the first, or reaches into the
second. -/
theorem prefix_append_cases {text first second : List UInt8}
    (isPrefix : text <+: first ++ second) :
    text <+: first ∨ ∃ more, more <+: second ∧ text = first ++ more := by
  rcases List.prefix_or_prefix_of_prefix isPrefix
      (List.prefix_append first second) with within | ⟨more, rfl⟩
  · exact .inl within
  · exact .inr ⟨more, (List.prefix_append_right_inj _).mp isPrefix, rfl⟩

/-- The first byte of a kind stands in the same place of a text and of its
beginning. -/
theorem first_prefix (kind : UInt8 → Prop)
    {before front text rest : List UInt8} {byte other : UInt8}
    (plain : ∀ byte ∈ before, ¬kind byte)
    (found : kind byte) (plainFront : ∀ byte ∈ front, ¬kind byte)
    (foundOther : kind other)
    (isPrefix : before ++ byte :: text <+: front ++ other :: rest) :
    before = front ∧ byte = other ∧ text <+: rest := by
  induction before generalizing front with
  | nil =>
      cases front with
      | nil => exact ⟨rfl, List.cons_prefix_cons.mp isPrefix⟩
      | cons head front =>
          obtain ⟨rfl, -⟩ := List.cons_prefix_cons.mp isPrefix
          exact absurd found (plainFront byte (List.mem_cons_self ..))
  | cons first before inductionHypothesis =>
      cases front with
      | nil =>
          obtain ⟨rfl, -⟩ := List.cons_prefix_cons.mp isPrefix
          exact absurd foundOther (plain first (List.mem_cons_self ..))
      | cons head front =>
          obtain ⟨rfl, isRest⟩ := List.cons_prefix_cons.mp isPrefix
          obtain ⟨rfl, same, within⟩ := inductionHypothesis
            (fun byte mem => plain byte (List.mem_cons_of_mem _ mem))
            (fun byte mem => plainFront byte (List.mem_cons_of_mem _ mem))
            isRest
          exact ⟨rfl, same, within⟩

/-! ## Values without strings -/

theorem Digits.unquoted (digits : Digits) : 34 ∉ digits.bytes :=
  fun mem => absurd (digits.digit 34 mem).1 (by decide)

theorem Number.unquoted (number : Number) : 34 ∉ number.bytes := by
  have exponent := (leftOver_clean (.number number)).1
  obtain ⟨byte, rest, mantissa, first, follows⟩ := mantissa_cons number
  intro mem
  rcases List.mem_append.mp mem with inside | behind
  · rw [mantissa] at inside
    rcases List.mem_cons.mp inside with rfl | later
    · revert first
      decide
    · rcases follows 34 later with ⟨low, -⟩ | point
      · exact absurd low (by decide)
      · exact absurd point (by decide)
  · exact exponent behind

mutual

/-- A value without strings contains no quote. -/
theorem value_unquoted : (value : Value) → value.strings = [] →
    34 ∉ value.text
  | .string items, without => absurd without (by simp [Value.strings])
  | .number number, _ => by
      rw [Value.text]
      exact Number.unquoted number
  | .literal literal, _ => by cases literal <;> decide
  | .array gap elements, without => by
      have inside := elements_unquoted elements
        (by simpa [Value.strings] using without)
      simp [Value.text, Blanks.no_quote, inside]
  | .object gap [], _ => by
      simp [Value.text, membersText, Blanks.no_quote]
  | .object gap (member :: rest), without =>
      absurd without (by simp [Value.strings, membersStrings, memberStrings_eq])

theorem elements_unquoted : (elements : List (JsonSyntax.Element Value)) →
    elementsStrings elements = [] → 34 ∉ elementsText elements
  | [], _ => by simp [elementsText]
  | [element], without => by
      rw [elementsText]
      exact element_unquoted element (by simpa [elementsStrings] using without)
  | element :: next :: rest, without => by
      rw [elementsStrings, List.append_eq_nil_iff] at without
      have first := element_unquoted element without.1
      have others := elements_unquoted (next :: rest) without.2
      simp [elementsText, first, others, Blanks.no_quote]

theorem element_unquoted : (element : JsonSyntax.Element Value) →
    elementStrings element = [] → 34 ∉ elementText element
  | ⟨value, after, _⟩, without => by
      have inside := value_unquoted value
        (by simpa [elementStrings] using without)
      simp [elementText, inside, Blanks.no_quote]

end

/-! ## Where a value begins -/

/-- The first byte of a value opens it. -/
theorem value_opens (value : Value) :
    ∃ first rest, value.text = first :: rest ∧ OpensValue first ∧
      openedType first = typeOf value ∧
      openedValue first rest = valueText value := by
  cases value with
  | string items =>
      exact ⟨34, rawText items ++ [34], by rw [Value.text], by decide, rfl,
        rfl⟩
  | number number =>
      obtain ⟨byte, digits, mantissa, digit, -⟩ := mantissa_cons number
      obtain ⟨type, quote, -⟩ := openedType_number digit
      have text : (Value.number number).text =
          byte :: (digits ++ exponentText number.exponent) := by
        rw [Value.text, Number.bytes, mantissa, List.cons_append]
      refine ⟨byte, _, text, .inr (.inr (.inr (.inl digit))), type, ?_⟩
      rw [openedValue, if_neg quote, ← text]
      rfl
  | literal literal =>
      cases literal
      · exact ⟨116, [114, 117, 101], rfl, by decide, rfl, rfl⟩
      · exact ⟨102, [97, 108, 115, 101], rfl, by decide, rfl, rfl⟩
      · exact ⟨110, [117, 108, 108], rfl, by decide, rfl, rfl⟩
  | array gap elements =>
      refine ⟨91, gap.bytes ++ elementsText elements ++ [93], by
        rw [Value.text], by decide, rfl, ?_⟩
      rw [openedValue, if_neg (by decide), valueText, Value.text]
      intro items other
      cases other
  | object gap members =>
      refine ⟨123, gap.bytes ++ membersText members ++ [125], by
        rw [Value.text], by decide, rfl, ?_⟩
      rw [openedValue, if_neg (by decide), valueText, Value.text]
      intro items other
      cases other

/-! ## Where a value is cut -/

/-- The value is read in whole, and the scan goes on in what follows it. -/
structure ReadWhole (value : Value) (follow val : List UInt8) : Prop where
  nonempty : val ≠ []
  length : valueLen (typeOf value) val + (leftOver value).length =
    value.content.length
  next : val.drop (if typeOf value = .string then
      valueLen (typeOf value) val + 1 else valueLen (typeOf value) val) <+:
    leftOver value ++ follow

/-- The value has no length, and the scan goes on in it. -/
structure CutOff (value : Value) (val : List UInt8) : Prop where
  length : valueLen (typeOf value) val = 0
  inside : 34 ∉ val ∨
    ∃ gap members, value = .object gap members ∧ val <+: value.text

theorem markedLen_absent {opening closing : UInt8} {text : List UInt8}
    (absent : closing ∉ text) (markDepth count : Nat) :
    markedLen opening closing text markDepth count = none := by
  induction text generalizing markDepth count with
  | nil => rfl
  | cons byte text inductionHypothesis =>
      simp only [List.mem_cons, not_or] at absent
      rw [markedLen, if_neg (Ne.symm absent.1)]
      split
      · rfl
      split
      · exact inductionHypothesis absent.2 _ _
      · exact inductionHypothesis absent.2 _ _

theorem string_cut {items : List StringItem} (unquoted : 34 ∉ rawText items)
    {val follow : List UInt8}
    (isPrefix : val <+: (rawText items ++ [34]) ++ follow) :
    ReadWhole (.string items) follow val ∨ CutOff (.string items) val := by
  have short : 34 ∉ val → CutOff (.string items) val := fun absent =>
    ⟨by rw [typeOf, valueLen, markedLen_absent absent]; rfl, .inl absent⟩
  rw [List.append_assoc] at isPrefix
  rcases prefix_append_cases isPrefix with within | ⟨more, isMore, rfl⟩
  · exact .inr (short fun mem => unquoted (within.mem mem))
  cases more with
  | nil => exact .inr (short (by simpa using unquoted))
  | cons head more =>
      obtain ⟨rfl, isMore⟩ := List.cons_prefix_cons.mp isMore
      have cut := markedLen_quote unquoted (rawText_ne_zero items) more 0
      have len : valueLen (typeOf (.string items)) (rawText items ++
          34 :: more) = (rawText items).length := by
        rw [typeOf, valueLen, cut, Option.getD_some, Nat.zero_add]
      refine .inl ⟨by simp, ?_, ?_⟩
      · rw [len]
        rfl
      · rw [len]
        simpa [typeOf, leftOver] using isMore

theorem number_cut (number : Number) {byte : UInt8}
    {rest follow : List UInt8} (nonzero : 0 ∉ rest)
    (delimits : ∃ first others, follow = first :: others ∧ Delimits first)
    (isPrefix : byte :: rest <+: number.bytes ++ follow) :
    ReadWhole (.number number) follow (byte :: rest) ∨
      CutOff (.number number) (byte :: rest) := by
  obtain ⟨first, digits, mantissa, -, digit⟩ := mantissa_cons number
  have unquoted := Number.unquoted number
  rw [Number.bytes, mantissa] at unquoted
  rw [Number.bytes, mantissa, List.append_assoc] at isPrefix
  obtain ⟨rfl, isRest⟩ := List.cons_prefix_cons.mp isPrefix
  have short : rest <+: digits → CutOff (.number number) (byte :: rest) := by
    intro within
    refine ⟨(numberLen_eq_zero_iff nonzero Nat.one_ne_zero).mpr
      fun other mem => digit other (within.mem mem), .inl fun mem => ?_⟩
    apply unquoted
    apply List.mem_append_left
    rcases List.mem_cons.mp mem with rfl | later
    · exact List.mem_cons_self ..
    · exact List.mem_cons_of_mem _ (within.mem later)
  rcases prefix_append_cases isRest with within | ⟨more, isMore, rfl⟩
  · exact .inr (short within)
  cases more with
  | nil =>
      rw [List.append_nil] at short ⊢
      exact .inr (short (List.prefix_refl _))
  | cons next more =>
      have ends : Delimits next := by
        obtain ⟨-, -, left⟩ := leftOver_clean (.number number)
        simp only [leftOver] at left
        rcases left with nothing | ⟨head, others, some_left, delimits⟩
        · obtain ⟨head, others, rfl, delimits⟩ := delimits
          rw [nothing] at isMore
          obtain ⟨rfl, -⟩ := List.cons_prefix_cons.mp isMore
          exact delimits
        · rw [some_left] at isMore
          obtain ⟨rfl, -⟩ := List.cons_prefix_cons.mp isMore
          exact delimits
      have len : valueLen (typeOf (.number number))
          (byte :: (digits ++ next :: more)) = 1 + digits.length :=
        numberLen_digits digit ends more 1
      refine .inl ⟨List.cons_ne_nil _ _, ?_, ?_⟩
      · rw [len, Value.content, Value.text, Number.bytes, mantissa, leftOver,
          List.length_append, List.length_cons]
        · omega
        · intro items other
          cases other
      · rw [len, if_neg (by simp [typeOf]), Nat.add_comm, List.drop_succ_cons,
          List.drop_left]
        exact isMore

/-- A name is not read where it is cut. -/
theorem name_cut (small : List UInt8) {capital text : List UInt8}
    (first : 0 ∉ small)
    (second : 0 ∉ capital) (other : ¬capital <+: small)
    (isPrefix : text <+: small) (shorter : text ≠ small) :
    nameLen text small capital = 0 := by
  have named : small ≠ [] := by
    rintro rfl
    exact shorter (List.prefix_nil.mp isPrefix)
  rw [nameLen_eq_zero_iff first second named]
  refine ⟨fun whole => shorter ?_, fun whole => other (whole.trans isPrefix)⟩
  exact isPrefix.eq_of_length_le whole.length_le

theorem literal_cut (literal : Literal) {val follow : List UInt8}
    (begins : val ≠ []) (isPrefix : val <+: literal.bytes ++ follow) :
    ReadWhole (.literal literal) follow val ∨
      CutOff (.literal literal) val := by
  have whole : ∀ more, more <+: follow →
      ReadWhole (.literal literal) follow (literal.bytes ++ more) := by
    intro more isMore
    have len : valueLen (typeOf (.literal literal))
        (literal.bytes ++ more) = literal.bytes.length := by
      cases literal <;> rfl
    have type : typeOf (.literal literal) ≠ .string := by
      cases literal <;> exact nofun
    refine ⟨by cases literal <;> exact List.cons_ne_nil _ _, ?_, ?_⟩
    · rw [len]
      rfl
    · rw [len, if_neg type, List.drop_left]
      exact isMore
  rcases prefix_append_cases isPrefix with within | ⟨more, isMore, rfl⟩
  · by_cases same : val = literal.bytes
    · have read := whole [] List.nil_prefix
      rw [List.append_nil, ← same] at read
      exact .inl read
    · have unquoted : 34 ∉ val := fun mem => by
        have inside := within.mem mem
        cases literal <;> revert inside <;> decide
      refine .inr ⟨?_, .inl unquoted⟩
      cases val with
      | nil => exact absurd rfl begins
      | cons head val =>
          cases literal with
          | true =>
              obtain ⟨rfl, -⟩ := List.cons_prefix_cons.mp within
              exact name_cut trueNames.1 (by decide) (by decide)
                (by decide) within same
          | false =>
              obtain ⟨rfl, -⟩ := List.cons_prefix_cons.mp within
              exact name_cut falseNames.1 (by decide) (by decide)
                (by decide) within same
          | null =>
              obtain ⟨rfl, -⟩ := List.cons_prefix_cons.mp within
              exact name_cut nullNames.1 (by decide) (by decide)
                (by decide) within same
  · exact .inl (whole more isMore)

/-- A text in marks is read in whole, or has no length where it is cut. -/
theorem marked_cut {opening closing : UInt8} (different : opening ≠ closing)
    (visible : closing ≠ 0) {inner : List UInt8} (nonzero : 0 ∉ inner)
    (enclosed : Enclosed opening closing (opening :: (inner ++ [closing])))
    {rest follow : List UInt8} (nonzero_rest : 0 ∉ rest)
    (isPrefix : opening :: rest <+:
      opening :: (inner ++ [closing]) ++ follow) :
    (∃ more, more <+: follow ∧
      opening :: rest = opening :: (inner ++ [closing]) ++ more ∧
      ((markedLen opening closing rest 0 1).map (· + 1)).getD 0 =
        (opening :: (inner ++ [closing])).length) ∨
    (opening :: rest <+: opening :: (inner ++ [closing]) ∧
      ((markedLen opening closing rest 0 1).map (· + 1)).getD 0 = 0) := by
  have whole : ∀ more, more <+: follow →
      opening :: rest = opening :: (inner ++ [closing]) ++ more →
      ((markedLen opening closing rest 0 1).map (· + 1)).getD 0 =
        (opening :: (inner ++ [closing])).length := by
    intro more _ same
    have rest_eq : rest = inner ++ closing :: more := by
      simpa using (List.cons.inj same).2
    have cut := markedLen_of_enclosed different visible nonzero enclosed more
    rw [rest_eq, cut, Option.map_some, Option.getD_some, List.length_cons,
      List.length_append, List.length_singleton]
    omega
  rcases prefix_append_cases isPrefix with within | ⟨more, isMore, same⟩
  · by_cases same : opening :: rest = opening :: (inner ++ [closing])
    · have same : opening :: rest = opening :: (inner ++ [closing]) ++ [] := by
        rw [List.append_nil]
        exact same
      exact .inl ⟨[], List.nil_prefix, same, whole [] List.nil_prefix same⟩
    · refine .inr ⟨within, (marked_eq_zero_iff different nonzero_rest).mpr ?_⟩
      rintro ⟨front, isFront, nonempty, balanced⟩
      have shorter : front ≠ opening :: (inner ++ [closing]) := by
        rintro rfl
        exact same (within.eq_of_length_le isFront.length_le)
      have fewer := enclosed.1 front (isFront.trans within) nonempty shorter
      omega
  · exact .inl ⟨more, isMore, same, whole more isMore same⟩

/-- A value in a text that may be cut is read in whole, or has no length. -/
theorem value_cut {value : Value} (plain : Plain value)
    (quiet : value.arrayStrings = []) {byte : UInt8} {rest follow : List UInt8}
    (nonzero : 0 ∉ rest)
    (delimits : ∃ first others, follow = first :: others ∧ Delimits first)
    (isPrefix : byte :: rest <+: value.text ++ follow) :
    ReadWhole value follow (openedValue byte rest) ∨
      CutOff value (openedValue byte rest) := by
  have passed := plain.passed
  have clean := value.ne_zero
  cases value with
  | string items =>
      rw [Value.text] at isPrefix
      obtain ⟨rfl, isRest⟩ := List.cons_prefix_cons.mp isPrefix
      exact string_cut passed isRest
  | number number =>
      rw [Value.text] at isPrefix
      obtain ⟨first, digits, mantissa, digit, -⟩ := mantissa_cons number
      have same : byte = first := by
        rw [Number.bytes, mantissa] at isPrefix
        exact (List.cons_prefix_cons.mp isPrefix).1
      rw [openedValue, if_neg (same ▸ (openedType_number digit).2.1)]
      exact number_cut number nonzero delimits isPrefix
  | literal literal =>
      rw [Value.text] at isPrefix
      have noQuote : byte ≠ 34 := by
        rintro rfl
        cases literal <;>
          exact absurd (List.cons_prefix_cons.mp isPrefix).1 (by decide)
      rw [openedValue, if_neg noQuote]
      exact literal_cut literal (List.cons_ne_nil _ _) isPrefix
  | array gap elements =>
      have unquoted := value_unquoted (.array gap elements)
        (by simpa [Value.arrayStrings, Value.strings] using quiet)
      have content : (Value.array gap elements).content =
          (Value.array gap elements).text := rfl
      rw [Passed, Value.text] at passed
      rw [Value.text, List.mem_cons, List.mem_append] at clean
      rw [Value.text] at isPrefix unquoted content
      obtain ⟨rfl, -⟩ := List.cons_prefix_cons.mp isPrefix
      rw [openedValue, if_neg (by decide)]
      rcases marked_cut (by decide) (by decide) (by tauto) passed nonzero
        isPrefix with ⟨more, isMore, same, len⟩ | ⟨within, len⟩
      · refine .inl ⟨List.cons_ne_nil _ _, ?_, ?_⟩
        · rw [content]
          exact len
        · have len : valueLen (typeOf (.array gap elements)) (91 :: rest) = _ :=
            len
          rw [len, if_neg (by simp [typeOf]), same, List.drop_left]
          exact isMore
      · exact .inr ⟨len, .inl fun mem => unquoted (within.mem mem)⟩
  | object gap members =>
      have content : (Value.object gap members).content =
          (Value.object gap members).text := rfl
      rw [Passed, Value.text] at passed
      rw [Value.text, List.mem_cons, List.mem_append] at clean
      rw [Value.text] at isPrefix content
      obtain ⟨rfl, -⟩ := List.cons_prefix_cons.mp isPrefix
      rw [openedValue, if_neg (by decide)]
      rcases marked_cut (by decide) (by decide) (by tauto) passed nonzero
        isPrefix with ⟨more, isMore, same, len⟩ | ⟨within, len⟩
      · refine .inl ⟨List.cons_ne_nil _ _, ?_, ?_⟩
        · rw [content]
          exact len
        · have len : valueLen (typeOf (.object gap members)) (123 :: rest) =
              _ := len
          rw [len, if_neg (by simp [typeOf]), same, List.drop_left]
          exact isMore
      · refine .inr ⟨len, .inr ⟨gap, members, rfl, ?_⟩⟩
        rw [Value.text]
        exact within

end Json
end UIoT
