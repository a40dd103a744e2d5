import UIoT.Json.Lookup

/-!
# Enumerating the members of an object

The loop of `json_object_for_each_kv` over the text of a document.  It visits
the members in order, with the exact slices of their keys and values, when no
key and no string at the top contains a quote, no number has an exponent, and
the marks of every array and object are balanced with those in strings counted.
-/

namespace UIoT
namespace Json

open JsonSyntax

/-! ## Where marks are closed -/

/-- What stands in front of the mark that closes a value. -/
structure ClosedInside (opening closing : UInt8) (markDepth : Nat)
    (inner : List UInt8) : Prop where
  open_inside : ∀ front, front <+: inner →
    front.count closing ≤ markDepth + front.count opening
  balanced : inner.count closing = markDepth + inner.count opening

theorem ClosedInside.nil (opening closing : UInt8) :
    ClosedInside opening closing 0 [] where
  open_inside := by
    intro front isPrefix
    rw [List.prefix_nil.mp isPrefix]
    exact Nat.le_refl _
  balanced := rfl

/-- One more byte in front. -/
theorem ClosedInside.cons {opening closing byte : UInt8} {before after : Nat}
    {inner : List UInt8} (closed : ClosedInside opening closing after inner)
    (moves : [byte].count closing + after = before + [byte].count opening) :
    ClosedInside opening closing before (byte :: inner) where
  open_inside := by
    intro front isPrefix
    cases front with
    | nil => simp
    | cons head front =>
        obtain ⟨rfl, isRest⟩ := List.cons_prefix_cons.mp isPrefix
        have later := closed.open_inside front isRest
        rw [← List.singleton_append, List.count_append, List.count_append]
        omega
  balanced := by
    have later := closed.balanced
    rw [← List.singleton_append, List.count_append, List.count_append]
    omega

/-- What is found to be closed is closed there. -/
theorem markedLen_sound {opening closing : UInt8}
    (different : opening ≠ closing) {str : CharPtr}
    {markDepth count len : Nat}
    (found : markedLen opening closing str markDepth count = some len) :
    ∃ inner rest, str = inner ++ closing :: rest ∧
      len = count + inner.length ∧
      ClosedInside opening closing markDepth inner := by
  induction str generalizing markDepth count with
  | nil => cases found
  | cons byte str inductionHypothesis =>
      rw [markedLen] at found
      split at found
      · cases found
      split at found
      · rename_i closes
        split at found
        · rename_i outermost
          obtain rfl := Option.some.inj found
          rw [closes, outermost]
          exact ⟨[], str, rfl, rfl, .nil opening closing⟩
        · rename_i deeper
          obtain ⟨inner, rest, rfl, rfl, closed⟩ := inductionHypothesis found
          have moves : [byte].count closing + (markDepth - 1) =
              markDepth + [byte].count opening := by
            rw [closes, List.count_singleton_self,
              List.count_eq_zero.mpr (by simpa using different)]
            omega
          refine ⟨byte :: inner, rest, rfl, ?_, closed.cons moves⟩
          rw [List.length_cons]
          omega
      · rename_i goesOn
        split at found
        · rename_i opens
          obtain ⟨inner, rest, rfl, rfl, closed⟩ := inductionHypothesis found
          have moves : [byte].count closing + (markDepth + 1) =
              markDepth + [byte].count opening := by
            rw [opens, List.count_singleton_self,
              List.count_eq_zero.mpr (by simpa using different.symm)]
            omega
          refine ⟨byte :: inner, rest, rfl, ?_, closed.cons moves⟩
          rw [List.length_cons]
          omega
        · rename_i plain
          obtain ⟨inner, rest, rfl, rfl, closed⟩ := inductionHypothesis found
          have moves : [byte].count closing + markDepth =
              markDepth + [byte].count opening := by
            rw [List.count_eq_zero.mpr (by simpa using Ne.symm goesOn),
              List.count_eq_zero.mpr (by simpa using Ne.symm plain)]
            omega
          refine ⟨byte :: inner, rest, rfl, ?_, closed.cons moves⟩
          rw [List.length_cons]
          omega

/-- Marks closed at the end of a text enclose it. -/
theorem ClosedInside.enclosed {opening closing : UInt8}
    (different : opening ≠ closing) {inner : List UInt8}
    (closed : ClosedInside opening closing 0 inner) :
    Enclosed opening closing (opening :: (inner ++ [closing])) := by
  refine ⟨?_, ?_⟩
  · intro front isPrefix nonempty shorter
    cases front with
    | nil => exact absurd rfl nonempty
    | cons head front =>
        obtain ⟨rfl, isRest⟩ := List.cons_prefix_cons.mp isPrefix
        have within : front <+: inner := by
          rcases List.prefix_concat_iff.mp isRest with whole | within
          · exact absurd (by rw [whole]) shorter
          · exact within
        have fewer := closed.open_inside front within
        simp only [List.count_cons_self, List.count_cons_of_ne different]
        omega
  · have balanced := closed.balanced
    simp only [List.count_cons_self, List.count_cons_of_ne different,
      List.count_append, List.count_nil,
      List.count_cons_of_ne different.symm]
    omega

/-- A length that reaches the last mark of a text encloses it. -/
theorem enclosed_of_markedLen {opening closing : UInt8}
    (different : opening ≠ closing) {inner : List UInt8} (rest : CharPtr)
    (reaches : ((markedLen opening closing (inner ++ closing :: rest) 0 1).map
      (· + 1)).getD 0 = inner.length + 2) :
    Enclosed opening closing (opening :: (inner ++ [closing])) := by
  cases found : markedLen opening closing (inner ++ closing :: rest) 0 1 with
  | none =>
      rw [found] at reaches
      exact absurd reaches (by simp)
  | some len =>
      rw [found] at reaches
      have reaches : len + 1 = inner.length + 2 := reaches
      obtain ⟨front, behind, parts, length, closed⟩ :=
        markedLen_sound different found
      obtain ⟨rfl, -⟩ := List.append_inj parts (by omega)
      exact closed.enclosed different

/-! ## Values that are cut exactly -/

/-- The slice of the value is the whole value. -/
def Cut (value : Value) : Prop := Passed value ∧ leftOver value = []

theorem valueLen_of_cut {value : Value} (cut : Cut value) {next : UInt8}
    (delimits : Delimits next) (rest : CharPtr) :
    valueLen (typeOf value) (valueText value ++ next :: rest) =
      value.content.length := by
  have length := valueLen_of_passed cut.1 delimits rest
  rw [cut.2] at length
  exact length

/-- The length of a string ends at its first quote. -/
theorem markedLen_quote_length {text : List UInt8} (nonzero : 0 ∉ text)
    (rest : CharPtr)
    (reaches : (markedLen 34 34 (text ++ 34 :: rest) 0 0).getD 0 =
      text.length) : 34 ∉ text := by
  intro quoted
  obtain ⟨before, others, rfl, before_quote⟩ :=
    List.eq_append_cons_of_mem quoted
  have before_zero : 0 ∉ before := fun mem =>
    nonzero (List.mem_append_left _ mem)
  have cut := markedLen_quote before_quote before_zero
    (others ++ 34 :: rest) 0
  rw [List.append_assoc, List.cons_append, cut, Option.getD_some,
    List.length_append, List.length_cons] at reaches
  omega

/-- Only a value that is cut exactly has the length of its content. -/
theorem cut_of_valueLen {value : Value} {next : UInt8}
    (delimits : Delimits next) (rest : CharPtr)
    (length : valueLen (typeOf value) (valueText value ++ next :: rest) =
      value.content.length) : Cut value := by
  cases value with
  | string items =>
      refine ⟨?_, rfl⟩
      apply markedLen_quote_length (rawText_ne_zero items) (next :: rest)
      simpa [typeOf, valueText, valueLen, Value.content] using length
  | number number =>
      have passed : Passed (.number number) := trivial
      have total := valueLen_of_passed passed delimits rest
      refine ⟨trivial, List.length_eq_zero_iff.mp ?_⟩
      omega
  | literal literal => exact ⟨trivial, rfl⟩
  | array gap elements =>
      have text_eq : (Value.array gap elements).text =
          91 :: (gap.bytes ++ elementsText elements ++ [93]) := by
        rw [Value.text]
      refine ⟨?_, rfl⟩
      rw [Passed, text_eq]
      apply enclosed_of_markedLen (by decide) (next :: rest)
      simpa [typeOf, valueText, valueLen, Value.content, text_eq,
        Nat.add_assoc] using length
  | object gap members =>
      have text_eq : (Value.object gap members).text =
          123 :: (gap.bytes ++ membersText members ++ [125]) := by
        rw [Value.text]
      refine ⟨?_, rfl⟩
      rw [Passed, text_eq]
      apply enclosed_of_markedLen (by decide) (next :: rest)
      simpa [typeOf, valueText, valueLen, Value.content, text_eq,
        Nat.add_assoc] using length

/-! ## One member -/

/-- What the body of the loop sees of an entry. -/
structure KeyValue where
  key : CharPtr
  keyLen : Nat
  val : CharPtr
  valLen : Nat
  valType : JsonType

/-- The key and value of an entry. -/
def Entry.keyValue (entry : Entry) : KeyValue :=
  ⟨entry.key, entry.keyLen, entry.val, entry.valLen, entry.valType⟩

/-- The key and value of a member, in the text from its key on. -/
def Step.keyValue (step : Step) (rest : CharPtr) : KeyValue where
  key := step.keyText ++ rest
  keyLen := (rawText step.member.key).length
  val := valueText step.member.value ++ (step.behind.bytes ++ rest)
  valLen := step.member.value.content.length
  valType := typeOf step.member.value

/-- The loop sees the member as it is. -/
def Member.Seen (member : Member Value) : Prop :=
  34 ∉ rawText member.key ∧ Cut member.value

/-- The key of an entry ends at the first quote behind its beginning. -/
theorem jsonGetNextObject_key {lead tail : List UInt8} (no_quote : 34 ∉ lead)
    (ne_zero : 0 ∉ lead) {entry : Entry}
    (found : jsonGetNextObject (lead ++ 34 :: tail) = some entry) :
    ∃ closing, strchr 34 tail = some closing ∧
      entry.keyLen = tail.length - closing.length := by
  unfold jsonGetNextObject at found
  rw [strchr_found no_quote ne_zero] at found
  dsimp only [List.tail_cons] at found
  split at found
  · cases found
  rename_i closing closed
  split at found
  · cases found
  split at found
  · cases found
  rw [← Option.some.inj found]
  exact ⟨closing, closed, rfl⟩

/-- A key with a quote in it is cut short. -/
theorem keyLen_of_quoted {lead : List UInt8} (no_quote : 34 ∉ lead)
    (ne_zero : 0 ∉ lead) {step : Step} (quoted : 34 ∈ rawText step.member.key)
    {rest : CharPtr} {entry : Entry}
    (found : jsonGetNextObject (lead ++ 34 :: (step.keyText ++ rest)) =
      some entry) :
    entry.keyLen < (rawText step.member.key).length := by
  obtain ⟨closing, closed, keyLen⟩ :=
    jsonGetNextObject_key no_quote ne_zero found
  obtain ⟨before, others, raw, before_quote⟩ :=
    List.eq_append_cons_of_mem quoted
  have before_zero : 0 ∉ before := fun mem =>
    rawText_ne_zero step.member.key (raw ▸ List.mem_append_left _ mem)
  rw [Step.keyText, raw, List.append_assoc, List.append_assoc,
    List.cons_append, strchr_found before_quote before_zero] at closed
  rw [keyLen, ← Option.some.inj closed, Step.keyText, raw]
  simp only [List.length_append, List.length_cons]
  omega

/-- A key without a quote is passed. -/
theorem keyPassed_of_unquoted {step : Step}
    (unquoted : 34 ∉ rawText step.member.key) : step.KeyPassed := by
  have all : ∀ byte ∈ rawText step.member.key, decide (byte ≠ 34) = true :=
    fun byte mem => decide_eq_true fun same => unquoted (same ▸ mem)
  intro mem
  rw [List.dropWhile_eq_nil_iff.mpr all] at mem
  cases mem

/-- The entry at a member is the member's exactly when the loop sees it as it
is. -/
theorem keyValue_eq_iff {lead : List UInt8} (no_quote : 34 ∉ lead)
    (ne_zero : 0 ∉ lead) (step : Step) (rest : CharPtr) :
    (jsonGetNextObject (lead ++ 34 :: (step.keyText ++ rest))).map
        Entry.keyValue = some (step.keyValue rest) ↔
      Member.Seen step.member := by
  obtain ⟨next, others, behind, delimits⟩ := step.behind.delimits
  constructor
  · intro same
    obtain ⟨entry, found, equal⟩ := Option.map_eq_some_iff.mp same
    have keyLen : entry.keyLen = (rawText step.member.key).length :=
      congrArg KeyValue.keyLen equal
    have valLen : entry.valLen = step.member.value.content.length :=
      congrArg KeyValue.valLen equal
    have unquoted : 34 ∉ rawText step.member.key := by
      intro quoted
      have shorter := keyLen_of_quoted no_quote ne_zero quoted found
      omega
    refine ⟨unquoted, ?_⟩
    rw [jsonGetNextObject_step no_quote ne_zero
      (keyPassed_of_unquoted unquoted)] at found
    rw [← Option.some.inj found, behind, List.cons_append] at valLen
    exact cut_of_valueLen delimits (others ++ rest) valLen
  · rintro ⟨unquoted, cut⟩
    have unquoted_all : ∀ byte ∈ rawText step.member.key,
        decide (byte ≠ 34) = true := fun byte mem =>
      decide_eq_true fun same => unquoted (same ▸ mem)
    have keyLen : step.keyLen = (rawText step.member.key).length := by
      rw [Step.keyLen, List.takeWhile_eq_self_iff.mpr unquoted_all]
    have valLen := valueLen_of_cut cut delimits (others ++ rest)
    rw [← List.cons_append, ← behind] at valLen
    rw [jsonGetNextObject_step no_quote ne_zero
      (keyPassed_of_unquoted unquoted), Option.map_some]
    simp only [Entry.keyValue, keyLen, valLen]
    rfl

/-- The scan goes on behind a member that is seen as it is. -/
theorem next_of_seen {lead : List UInt8} (no_quote : 34 ∉ lead)
    (ne_zero : 0 ∉ lead) {step : Step} (seen : Member.Seen step.member)
    {rest : CharPtr} {entry : Entry}
    (found : jsonGetNextObject (lead ++ 34 :: (step.keyText ++ rest)) =
      some entry) :
    entry.next = step.behind.bytes ++ rest := by
  obtain ⟨next, others, behind, delimits⟩ := step.behind.delimits
  have cut := valueLen_of_passed seen.2.1 delimits (others ++ rest)
  rw [← List.cons_append, ← behind] at cut
  have goesOn := next_of_cut cut (step.behind.bytes ++ rest)
  rw [seen.2.2, List.nil_append] at goesOn
  rw [jsonGetNextObject_step no_quote ne_zero
    (keyPassed_of_unquoted seen.1)] at found
  rw [← Option.some.inj found]
  exact goesOn

/-! ## The members of a document -/

/-- The keys and values of members one behind the other. -/
def keyValues : (steps : List Step) → (rest : CharPtr) → List KeyValue
  | [], _ => []
  | step :: steps, rest =>
      step.keyValue (stepsText steps ++ rest) :: keyValues steps rest

/-- The loop sees the members from a position on exactly when it sees each of
them as it is. -/
theorem entriesFrom_keyValues_iff (steps : List Step) {lead : List UInt8}
    (no_quote : 34 ∉ lead) (ne_zero : 0 ∉ lead) (behind : CharPtr)
    {turns : Nat}
    (enough : (lead ++ (stepsText steps ++ 0 :: behind)).length ≤ turns) :
    (entriesFrom turns (lead ++ (stepsText steps ++ 0 :: behind))).map
        Entry.keyValue = keyValues steps (0 :: behind) ↔
      ∀ step ∈ steps, Member.Seen step.member := by
  induction steps generalizing lead turns with
  | nil =>
      have absent : jsonGetNextObject (lead ++ 0 :: behind) = none := by
        unfold jsonGetNextObject
        rw [strchr_absent no_quote ne_zero (by decide)]
      refine iff_of_true ?_ nofun
      cases turns with
      | zero => rfl
      | succ turns =>
          rw [stepsText, List.nil_append, entriesFrom, absent]
          split <;> rfl
  | cons step steps inductionHypothesis =>
      cases turns with
      | zero => exact absurd enough (by simp)
      | succ turns =>
          let rest := stepsText steps ++ 0 :: behind
          have pos_eq : lead ++ (stepsText (step :: steps) ++ 0 :: behind) =
              lead ++ 34 :: (step.keyText ++ rest) := by
            simp [stepsText, rest]
          have visible : deref (lead ++ 34 :: (step.keyText ++ rest)) ≠ 0 :=
            deref_append_ne_zero ne_zero (by decide) _
          have one := keyValue_eq_iff no_quote ne_zero step rest
          rw [pos_eq] at enough ⊢
          rw [entriesFrom, if_neg visible, keyValues, List.forall_mem_cons,
            ← one]
          cases found :
              jsonGetNextObject (lead ++ 34 :: (step.keyText ++ rest)) with
          | none => simp
          | some entry =>
              rw [List.map_cons, List.cons.injEq, Option.map_some,
                Option.some_inj]
              apply and_congr_right
              intro same
              have seen := one.mp (by rw [found, Option.map_some, same])
              have shorter := jsonGetNextObject_length found
              have goesOn := next_of_seen no_quote ne_zero seen found
              rw [goesOn] at shorter ⊢
              exact inductionHypothesis step.behind.no_quote
                step.behind.ne_zero
                (Nat.le_of_lt_succ (Nat.lt_of_lt_of_le shorter enough))

/-- A document the members of which the loop sees as they are. -/
structure Enumerable (document : ObjectDocument) : Prop where
  spaces : document.members = [] ∨ ∀ byte ∈ document.before.bytes, byte = 32
  seen : ∀ member ∈ document.members, Member.Seen member

/-- Blanks other than spaces hide the object behind them. -/
theorem jsonGetObject_blanks {bytes : List UInt8}
    (blank : ∀ byte ∈ bytes, byte = 32 ∨ byte = 9 ∨ byte = 10 ∨ byte = 13)
    (other : ¬∀ byte ∈ bytes, byte = 32) (rest : CharPtr) :
    jsonGetObject (bytes ++ rest) = none := by
  induction bytes with
  | nil => exact absurd nofun other
  | cons byte bytes inductionHypothesis =>
      rcases blank byte (List.mem_cons_self ..) with rfl | rfl | rfl | rfl
      · have later : ¬∀ byte ∈ bytes, byte = 32 := fun all =>
          other (List.forall_mem_cons.mpr ⟨rfl, all⟩)
        exact inductionHypothesis
          (fun found mem => blank found (List.mem_cons_of_mem _ mem)) later
      · rfl
      · rfl
      · rfl

/-- The loop visits exactly the members of a document, in order, each with its
key, its value and its type. -/
theorem jsonObjectForEachKv_iff (document : ObjectDocument)
    (behind : CharPtr) :
    (jsonObjectForEachKv (document.text ++ 0 :: behind)).map Entry.keyValue =
        keyValues (documentSteps document) (0 :: behind) ↔
      Enumerable document := by
  have members : (documentSteps document).map Step.member = document.members :=
    objectSteps_member _ _ _ _
  have seen_iff : (∀ step ∈ documentSteps document, Member.Seen step.member) ↔
      ∀ member ∈ document.members, Member.Seen member := by
    rw [← members, List.forall_mem_map]
  have lead_quote := objectLead_no_quote (Blanks.no_quote document.after)
    document.gap document.members
  have lead_zero := objectLead_ne_zero (Blanks.ne_zero document.after)
    document.gap document.members
  have text_eq : document.text ++ 0 :: behind = document.before.bytes ++
      (objectLead document.after.bytes document.gap document.members ++
        (stepsText (documentSteps document) ++ 0 :: behind)) := by
    rw [documentSteps, ← List.append_assoc (objectLead ..), ← object_text,
      ObjectDocument.text, ObjectDocument.value]
    simp only [List.append_assoc]
  have begins : jsonGetObject
      (objectLead document.after.bytes document.gap document.members ++
        (stepsText (documentSteps document) ++ 0 :: behind)) =
      some (objectLead document.after.bytes document.gap document.members ++
        (stepsText (documentSteps document) ++ 0 :: behind)) := by
    cases document.members <;> rfl
  by_cases spaces : ∀ byte ∈ document.before.bytes, byte = 32
  · have loop := entriesFrom_keyValues_iff (documentSteps document)
      lead_quote lead_zero behind (Nat.le_refl _)
    rw [text_eq, jsonObjectForEachKv, jsonGetObject_spaces spaces, begins]
    dsimp only
    rw [loop, seen_iff]
    exact ⟨fun seen => ⟨.inr spaces, seen⟩, Enumerable.seen⟩
  · rw [text_eq, jsonObjectForEachKv,
      jsonGetObject_blanks document.before.blank spaces]
    dsimp only [List.map_nil]
    constructor
    · intro nothing
      have empty : document.members = [] := by
        rw [← members]
        cases steps : documentSteps document with
        | nil => rfl
        | cons step rest =>
            rw [steps, keyValues] at nothing
            cases nothing
      refine ⟨.inl empty, ?_⟩
      rw [empty]
      exact List.forall_mem_nil _
    · intro enumerable
      rcases enumerable.spaces with empty | all
      · have none_left : documentSteps document = [] := by
          rw [← members] at empty
          exact List.map_eq_nil_iff.mp empty
        rw [none_left]
        rfl
      · exact absurd all spaces

/-- The document `{"a":"\\""}`: a string of one quote. -/
def quoteDocument : ObjectDocument :=
  tightDocument [tightMember [letter 0] (.string [.escape .quote])]

/-- The value is cut in front of the quote in it, and what is left of it is
taken for a key that is not closed. -/
theorem quoteDocument_broken :
    quoteDocument.text = [123, 34, 97, 34, 58, 34, 92, 34, 34, 125] ∧
      ((jsonObjectForEachKv (quoteDocument.text ++ [0])).map
        fun entry => entry.val.take entry.valLen) = [[92]] ∧
      ¬(jsonObjectForEachKv (quoteDocument.text ++ [0])).map Entry.keyValue =
        keyValues (documentSteps quoteDocument) [0] := by
  refine ⟨by decide, by decide, fun same => ?_⟩
  have lengths := congrArg (List.map KeyValue.valLen) same
  revert lengths
  decide

end Json
end UIoT
