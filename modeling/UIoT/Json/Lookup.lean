import UIoT.Json.Scanning
import Mathlib.Algebra.GroupWithZero.Nat
import Mathlib.Data.List.TakeWhile

/-!
# Looking up dotted paths

`LITE_json_value_of` goes on behind the end of an object with the members that
follow it in the objects around it, compares only the beginning of a key, and
passes over empty strings.  A position in a document is seen as the members it
comes by from there on, and a path is clear where the members it comes by on its
way do not lead it astray; then the value at the end of the path is answered.
-/

namespace UIoT
namespace Json

open JsonSyntax

/-! ## Members from a position on -/

/-- What lies between a value and the key of the next member, or between the
last value and the end of the text: it begins with a blank, a comma or a closing
brace. -/
structure Gap where
  bytes : List UInt8
  delimits : ∃ first rest, bytes = first :: rest ∧ Delimits first
  no_quote : 34 ∉ bytes
  ne_zero : 0 ∉ bytes

/-- A member a scan comes by, and what lies behind it. -/
structure Step where
  member : Member Value
  behind : Gap

/-- The text of the member from its key on. -/
def Step.keyText (step : Step) : List UInt8 :=
  rawText step.member.key ++ 34 :: (step.member.beforeColon.bytes ++
    58 :: (step.member.afterColon.bytes ++
      (step.member.value.text ++ step.behind.bytes)))

/-- The text of the steps of a scan. -/
def stepsText : List Step → List UInt8
  | [] => []
  | step :: steps => 34 :: (step.keyText ++ stepsText steps)

@[simp] theorem stepsText_append (first second : List Step) :
    stepsText (first ++ second) = stepsText first ++ stepsText second := by
  induction first with
  | nil => rfl
  | cons step first inductionHypothesis =>
      simp [stepsText, inductionHypothesis]

theorem Blanks.no_quote (blanks : Blanks) : 34 ∉ blanks.bytes := by
  intro mem
  rcases blanks.blank 34 mem with same | same | same | same <;>
    exact absurd same (by decide)

theorem Blanks.no_colon (blanks : Blanks) : 58 ∉ blanks.bytes := by
  intro mem
  rcases blanks.blank 58 mem with same | same | same | same <;>
    exact absurd same (by decide)

/-- A gap of blanks, a mark and more. -/
def Gap.of (blanks : Blanks) (mark : UInt8) (rest : List UInt8)
    (visible : Delimits mark ∧ mark ≠ 34) (no_quote : 34 ∉ rest)
    (ne_zero : 0 ∉ rest) : Gap where
  bytes := blanks.bytes ++ mark :: rest
  delimits := by
    cases bytes : blanks.bytes with
    | nil => exact ⟨mark, rest, rfl, visible.1⟩
    | cons first others =>
        refine ⟨first, others ++ mark :: rest, rfl, ?_⟩
        exact Blanks.delimits blanks first (by rw [bytes]; simp)
  no_quote := by
    simp [Blanks.no_quote, no_quote, Ne.symm visible.2]
  ne_zero := by
    simp [Blanks.ne_zero, ne_zero, Ne.symm visible.1.1]

/-- The steps of a scan through the members of an object, with what lies behind
the object. -/
def objectSteps (closing : List UInt8) (no_quote : 34 ∉ closing)
    (ne_zero : 0 ∉ closing) : List (Member Value) → List Step
  | [] => []
  | [member] =>
      [⟨member, .of member.after 125 closing
        ⟨⟨by decide, by decide, by decide⟩, by decide⟩ no_quote ne_zero⟩]
  | member :: next :: rest =>
      ⟨member, .of member.after 44 member.between.bytes
        ⟨⟨by decide, by decide, by decide⟩, by decide⟩
        (Blanks.no_quote _) (Blanks.ne_zero _)⟩ ::
        objectSteps closing no_quote ne_zero (next :: rest)

/-- What a scan comes by before the first member of an object. -/
def objectLead (closing : List UInt8) (gap : Blanks) :
    List (Member Value) → List UInt8
  | [] => 123 :: (gap.bytes ++ 125 :: closing)
  | _ :: _ => 123 :: gap.bytes

theorem objectSteps_text (closing : List UInt8) (no_quote : 34 ∉ closing)
    (ne_zero : 0 ∉ closing) (member : Member Value)
    (members : List (Member Value)) :
    stepsText (objectSteps closing no_quote ne_zero (member :: members)) =
      membersText (member :: members) ++ 125 :: closing := by
  induction members generalizing member with
  | nil =>
      simp [objectSteps, stepsText, Step.keyText, Gap.of, membersText,
        memberText_eq]
  | cons next rest inductionHypothesis =>
      rw [objectSteps, stepsText, inductionHypothesis next, membersText]
      simp [Step.keyText, Gap.of, memberText_eq]

/-- An object and what lies behind it, as a scan comes by it. -/
theorem object_text (closing : List UInt8) (no_quote : 34 ∉ closing)
    (ne_zero : 0 ∉ closing) (gap : Blanks) (members : List (Member Value)) :
    (Value.object gap members).text ++ closing =
      objectLead closing gap members ++
        stepsText (objectSteps closing no_quote ne_zero members) := by
  cases members with
  | nil => simp [Value.text, membersText, objectLead, objectSteps, stepsText]
  | cons member members =>
      rw [objectSteps_text]
      simp [Value.text, objectLead]

theorem objectLead_no_quote {closing : List UInt8} (no_quote : 34 ∉ closing)
    (gap : Blanks) (members : List (Member Value)) :
    34 ∉ objectLead closing gap members := by
  cases members <;> simp [objectLead, Blanks.no_quote, no_quote]

theorem objectLead_ne_zero {closing : List UInt8} (ne_zero : 0 ∉ closing)
    (gap : Blanks) (members : List (Member Value)) :
    0 ∉ objectLead closing gap members := by
  cases members <;> simp [objectLead, Blanks.ne_zero, ne_zero]

theorem Step.keyText_ne_zero (step : Step) : 0 ∉ step.keyText := by
  simp [keyText, rawText_ne_zero, Blanks.ne_zero, Value.ne_zero,
    step.behind.ne_zero]

theorem stepsText_ne_zero (steps : List Step) : 0 ∉ stepsText steps := by
  induction steps with
  | nil => simp [stepsText]
  | cons step steps inductionHypothesis =>
      simp [stepsText, step.keyText_ne_zero, inductionHypothesis]

/-! ## Entries of a scan -/

/-- The key is passed: no colon follows a quote in it. -/
def Step.KeyPassed (step : Step) : Prop :=
  58 ∉ (rawText step.member.key).dropWhile (· ≠ 34)

instance (step : Step) : Decidable step.KeyPassed :=
  inferInstanceAs (Decidable (¬_))

/-- How much of a key is in front of its first quote. -/
def Step.keyLen (step : Step) : Nat :=
  ((rawText step.member.key).takeWhile (· ≠ 34)).length

/-- The entry found at a member whose key is passed. -/
theorem jsonGetNextObject_step {lead : List UInt8} (no_quote : 34 ∉ lead)
    (ne_zero : 0 ∉ lead) {step : Step} (key : step.KeyPassed)
    (rest : CharPtr) :
    let val := valueText step.member.value ++ (step.behind.bytes ++ rest)
    let valLen := valueLen (typeOf step.member.value) val
    jsonGetNextObject (lead ++ 34 :: (step.keyText ++ rest)) =
      some
        { key := step.keyText ++ rest
          keyLen := step.keyLen
          val
          valLen
          valType := typeOf step.member.value
          next :=
            if typeOf step.member.value = .string then val.drop (valLen + 1)
            else val.drop valLen } := by
  intro val valLen
  have opening := strchr_found no_quote ne_zero (step.keyText ++ rest)
  let raw := rawText step.member.key
  let fromColon : CharPtr := 58 :: (step.member.afterColon.bytes ++
    (step.member.value.text ++ (step.behind.bytes ++ rest)))
  have raw_zero : 0 ∉ raw := rawText_ne_zero _
  have split_eq : raw.takeWhile (· ≠ 34) ++ raw.dropWhile (· ≠ 34) = raw :=
    List.takeWhile_append_dropWhile
  have before_quote : 34 ∉ raw.takeWhile (· ≠ 34) := fun mem => by
    simpa using List.mem_takeWhile_imp mem
  have before_zero : 0 ∉ raw.takeWhile (· ≠ 34) := fun mem =>
    raw_zero (List.takeWhile_subset _ mem)
  -- the text from the first quote of the key on
  have closed : ∃ between : List UInt8, 58 ∉ between ∧ 0 ∉ between ∧
      raw.dropWhile (· ≠ 34) ++ 34 :: (step.member.beforeColon.bytes ++
        fromColon) = 34 :: (between ++ fromColon) := by
    have later_zero : 0 ∉ raw.dropWhile (· ≠ 34) := fun mem =>
      raw_zero (List.dropWhile_subset _ mem)
    have key : 58 ∉ raw.dropWhile (· ≠ 34) := key
    cases quoted : raw.dropWhile (· ≠ 34) with
    | nil => exact ⟨_, Blanks.no_colon _, Blanks.ne_zero _, rfl⟩
    | cons first others =>
        have first_eq : first = 34 := by
          have stopped := List.head?_dropWhile_not (· ≠ (34 : UInt8)) raw
          rw [quoted] at stopped
          simpa using stopped
        rw [quoted] at key later_zero
        simp only [List.mem_cons, not_or] at key later_zero
        refine ⟨others ++ 34 :: step.member.beforeColon.bytes, ?_, ?_, ?_⟩
        · simp [key.2, Blanks.no_colon]
        · simp [later_zero.2, Blanks.ne_zero]
        · simp [first_eq]
  obtain ⟨between, no_colon, between_zero, closed⟩ := closed
  have key_eq : step.keyText ++ rest =
      raw.takeWhile (· ≠ 34) ++ 34 :: (between ++ fromColon) := by
    rw [← closed, ← List.append_assoc, split_eq]
    simp [Step.keyText, raw, fromColon]
  have closing : strchr 34 (step.keyText ++ rest) =
      some (34 :: (between ++ fromColon)) := by
    rw [key_eq]
    exact strchr_found before_quote before_zero _
  have colon : strchr 58 (34 :: (between ++ fromColon)) = some fromColon := by
    rw [strchr, if_neg (by decide), if_neg (by decide)]
    exact strchr_found no_colon between_zero _
  have found : findValue fromColon = some (typeOf step.member.value, val) := by
    rw [findValue, if_neg (by decide), if_neg (by decide), if_neg (by decide),
      if_neg (by decide), if_neg (by decide), if_neg (by decide),
      if_neg (by decide), findValue_blanks, findValue_value]
  have keyLen : (step.keyText ++ rest).length -
      (34 :: (between ++ fromColon)).length = step.keyLen := by
    rw [key_eq, List.length_append, Nat.add_sub_cancel]
    rfl
  unfold jsonGetNextObject
  simp only [opening, List.tail_cons, closing, colon, found, keyLen]
  rfl

/-- Only an empty key has no byte in front of its first quote. -/
theorem Step.keyLen_ne_zero {step : Step} :
    step.keyLen ≠ 0 ↔ rawText step.member.key ≠ [] := by
  unfold keyLen
  cases step.member.key with
  | nil => simp [rawText]
  | cons item items =>
      cases item with
      | plain byte allowed =>
          simp [rawText, StringItem.bytes, allowed.2.1]
      | escape code => simp [rawText, StringItem.bytes]
      | unicode a b c d => simp [rawText, StringItem.bytes]

/-! ## Turns -/

theorem strchr_suffix {c : UInt8} {str found : CharPtr}
    (answer : strchr c str = some found) :
    found <:+ str ∧ found.head? = some c := by
  induction str with
  | nil => cases answer
  | cons byte str inductionHypothesis =>
      rw [strchr] at answer
      split at answer
      · rename_i same
        obtain rfl := Option.some.inj answer
        exact ⟨List.suffix_refl _, by rw [List.head?_cons, same]⟩
      split at answer
      · cases answer
      · obtain ⟨isSuffix, head⟩ := inductionHypothesis answer
        exact ⟨isSuffix.trans (List.suffix_cons ..), head⟩

theorem findValue_length {str val : CharPtr} {type : JsonType}
    (answer : findValue str = some (type, val)) : val.length ≤ str.length := by
  induction str with
  | nil => cases answer
  | cons byte str inductionHypothesis =>
      rw [findValue] at answer
      split at answer
      · cases answer
      split at answer
      · obtain ⟨-, rfl⟩ := Prod.mk.inj (Option.some.inj answer)
        exact Nat.le_succ _
      split at answer
      · obtain ⟨-, rfl⟩ := Prod.mk.inj (Option.some.inj answer)
        exact Nat.le_refl _
      split at answer
      · obtain ⟨-, rfl⟩ := Prod.mk.inj (Option.some.inj answer)
        exact Nat.le_refl _
      split at answer
      · obtain ⟨-, rfl⟩ := Prod.mk.inj (Option.some.inj answer)
        exact Nat.le_refl _
      split at answer
      · obtain ⟨-, rfl⟩ := Prod.mk.inj (Option.some.inj answer)
        exact Nat.le_refl _
      split at answer
      · obtain ⟨-, rfl⟩ := Prod.mk.inj (Option.some.inj answer)
        exact Nat.le_refl _
      · exact Nat.le_trans (inductionHypothesis answer) (Nat.le_succ _)

/-- `json_get_next_object` moves the position on. -/
theorem jsonGetNextObject_length {str : CharPtr} {entry : Entry}
    (answer : jsonGetNextObject str = some entry) :
    entry.next.length < str.length := by
  unfold jsonGetNextObject at answer
  split at answer
  · cases answer
  rename_i opening opened
  dsimp only at answer
  split at answer
  · cases answer
  rename_i closing closed
  split at answer
  · cases answer
  rename_i colon parted
  split at answer
  · cases answer
  rename_i type val found
  obtain rfl := Option.some.inj answer
  have opens := strchr_suffix opened
  have first := opens.1.length_le
  have second := (strchr_suffix closed).1.length_le
  have third := (strchr_suffix parted).1.length_le
  have fourth := findValue_length found
  have nonempty : opening.length ≠ 0 := by
    intro empty
    rw [List.length_eq_zero_iff.mp empty] at opens
    cases opens.2
  rw [List.length_tail] at second
  dsimp only
  split <;> rw [List.length_drop] <;> omega

/-- As many turns as there are bytes are enough. -/
theorem entriesFrom_eq {turns : Nat} {pos : CharPtr}
    (enough : pos.length ≤ turns) :
    entriesFrom turns pos = entriesFrom pos.length pos := by
  have all : ∀ (turns : Nat) (pos : CharPtr) (more : Nat),
      pos.length ≤ turns →
        entriesFrom (turns + more) pos = entriesFrom turns pos := by
    intro turns
    induction turns with
    | zero =>
        intro pos more short
        obtain rfl := List.length_eq_zero_iff.mp (Nat.le_zero.mp short)
        cases more <;> rfl
    | succ turns inductionHypothesis =>
        intro pos more short
        rw [Nat.succ_add, entriesFrom, entriesFrom]
        split
        · rfl
        split
        · rfl
        · rename_i entry found
          have shorter := jsonGetNextObject_length found
          rw [inductionHypothesis entry.next more (by omega)]
  obtain ⟨more, rfl⟩ := Nat.exists_eq_add_of_le enough
  exact all pos.length pos more (Nat.le_refl _)

/-! ## Searching a name -/

/-- The loop of `json_get_value_by_name` from a position on. -/
def search (name : List UInt8) (pos : CharPtr) : Option (CharPtr × Nat) :=
  ((entriesFrom pos.length pos).find? fun entry =>
    entry.reported && strncmpEq entry.key name name.length).map fun entry =>
      (entry.val, entry.valLen)

/-- The search begins with the entry found first. -/
theorem search_eq {name : List UInt8} {pos : CharPtr} {entry : Entry}
    (visible : deref pos ≠ 0) (found : jsonGetNextObject pos = some entry) :
    search name pos =
      if entry.reported && strncmpEq entry.key name name.length then
        some (entry.val, entry.valLen)
      else search name entry.next := by
  have shorter := jsonGetNextObject_length found
  obtain ⟨turns, turns_eq⟩ := Nat.exists_eq_succ_of_ne_zero
    (Nat.ne_of_gt (Nat.zero_lt_of_lt shorter))
  unfold search
  rw [turns_eq, entriesFrom, if_neg visible, found]
  dsimp only
  rw [List.find?_cons, entriesFrom_eq (by omega)]
  cases entry.reported && strncmpEq entry.key name name.length <;> rfl

/-- The end of the text is reached. -/
theorem search_none {name lead : List UInt8} (no_quote : 34 ∉ lead)
    (ne_zero : 0 ∉ lead) (behind : CharPtr) :
    search name (lead ++ 0 :: behind) = none := by
  have absent : jsonGetNextObject (lead ++ 0 :: behind) = none := by
    unfold jsonGetNextObject
    rw [strchr_absent no_quote ne_zero (by decide)]
  unfold search
  rw [List.length_append, List.length_cons, ← Nat.add_assoc, entriesFrom]
  split
  · rfl
  · rw [absent]
    rfl

/-- The scan reports the member: neither its key nor its value is empty. -/
def Step.Reported (step : Step) : Prop :=
  rawText step.member.key ≠ [] ∧ step.member.value.content ≠ []

/-- The scan passes the member, which does not answer to the name. -/
def Step.Skipped (name : List UInt8) (step : Step) (following : List Step) :
    Prop :=
  step.KeyPassed ∧ Passed step.member.value ∧
    (step.Reported → ¬name <+: step.keyText ++ stepsText following)

/-- The scan passes all of the members. -/
def PassesBy (name : List UInt8) : List Step → Prop
  | [] => True
  | step :: steps => step.Skipped name steps ∧ PassesBy name steps

/-- The member has the name, which is written in its key without escapes. -/
def Step.Target (name : List UInt8) (step : Step) : Prop :=
  step.member.Named name ∧ step.KeyPassed ∧
    name <+: rawText step.member.key

theorem deref_append_ne_zero {lead : List UInt8} (ne_zero : 0 ∉ lead)
    {next : UInt8} (visible : next ≠ 0) (rest : CharPtr) :
    deref (lead ++ next :: rest) ≠ 0 := by
  cases lead with
  | nil => exact visible
  | cons first lead => exact fun zero => ne_zero (zero ▸ List.mem_cons_self ..)

/-- A byte that the name lacks ends a comparison. -/
theorem prefix_of_terminated {name text behind : List UInt8} {mark : UInt8}
    (absent : mark ∉ name) (isPrefix : name <+: text ++ mark :: behind) :
    name <+: text := by
  rcases List.prefix_or_prefix_of_prefix isPrefix
      (List.prefix_append text (mark :: behind)) with within | ⟨more, rfl⟩
  · exact within
  · rw [List.prefix_append_right_inj] at isPrefix
    cases more with
    | nil => simp
    | cons byte more =>
        obtain ⟨rfl, -⟩ := List.cons_prefix_cons.mp isPrefix
        exact absurd (List.mem_append_right _ (List.mem_cons_self ..)) absent

/-- Where the scan goes on behind a value of which it has cut its length. -/
theorem next_of_cut {value : Value} {valLen : Nat}
    (cut : valLen + (leftOver value).length = value.content.length)
    (rest : CharPtr) :
    (if typeOf value = .string then
      (valueText value ++ rest).drop (valLen + 1)
      else (valueText value ++ rest).drop valLen) = leftOver value ++ rest := by
  cases value with
  | string items =>
      obtain rfl : valLen = (rawText items).length := cut
      simp [typeOf, valueText, leftOver]
  | number number =>
      have cut : valLen + (exponentText number.exponent).length =
          (number.mantissa ++ exponentText number.exponent).length := cut
      obtain rfl : valLen = number.mantissa.length := by
        rw [List.length_append] at cut
        omega
      simp [typeOf, valueText, leftOver, Value.text, Number.bytes]
  | literal literal =>
      obtain rfl : valLen = literal.bytes.length := cut
      cases literal <;> simp [typeOf, valueText, leftOver, Value.text]
  | array gap elements =>
      obtain rfl : valLen = (Value.array gap elements).text.length := cut
      simp [typeOf, valueText, leftOver]
  | object gap members =>
      obtain rfl : valLen = (Value.object gap members).text.length := cut
      simp [typeOf, valueText, leftOver]

/-- A skipped member leaves the search to what follows it. -/
theorem search_skipped {name lead : List UInt8} {step : Step}
    {following : List Step} (no_quote : 34 ∉ lead) (ne_zero : 0 ∉ lead)
    (nonzero : 0 ∉ name) (skipped : step.Skipped name following)
    (behind : CharPtr) :
    search name (lead ++ (stepsText (step :: following) ++ 0 :: behind)) =
      search name
        ((leftOver step.member.value ++ step.behind.bytes) ++
          (stepsText following ++ 0 :: behind)) := by
  obtain ⟨key, passed, astray⟩ := skipped
  obtain ⟨first, others, bytes, delimits⟩ := step.behind.delimits
  let rest := stepsText following ++ 0 :: behind
  have cut := valueLen_of_passed passed delimits (others ++ rest)
  rw [← List.cons_append, ← bytes] at cut
  have found := jsonGetNextObject_step no_quote ne_zero key rest
  dsimp only at found
  generalize valueLen (typeOf step.member.value)
    (valueText step.member.value ++ (step.behind.bytes ++ rest)) = valLen
    at cut found
  have pos_eq : lead ++ (stepsText (step :: following) ++ 0 :: behind) =
      lead ++ 34 :: (step.keyText ++ rest) := by
    simp [stepsText, rest]
  have next_eq := next_of_cut cut (step.behind.bytes ++ rest)
  have passes : ∀ entry : Entry, entry.key = step.keyText ++ rest →
      entry.keyLen = step.keyLen → entry.valLen = valLen →
      (entry.reported && strncmpEq entry.key name name.length) = false := by
    intro entry key_eq keyLen_eq valLen_eq
    by_contra answers
    rw [Bool.not_eq_false, Bool.and_eq_true, strncmpEq_iff nonzero, key_eq]
      at answers
    obtain ⟨reports, isPrefix⟩ := answers
    have reports : step.keyLen ≠ 0 ∧ valLen ≠ 0 := by
      simpa [Entry.reported, keyLen_eq, valLen_eq] using reports
    have reported : step.Reported := by
      refine ⟨Step.keyLen_ne_zero.mp reports.1, fun empty => ?_⟩
      rw [empty, List.length_nil] at cut
      omega
    apply astray reported
    have before : name <+: (step.keyText ++ stepsText following) ++
        0 :: behind := by simpa [rest] using isPrefix
    exact prefix_of_terminated nonzero before
  rw [pos_eq, search_eq (deref_append_ne_zero ne_zero (by decide) _) found,
    passes _ rfl rfl rfl, next_eq, List.append_assoc]
  rfl

/-- The search ends at a member whose key begins with the name, if it reports
the member. -/
theorem search_begins {name lead : List UInt8} {step : Step}
    (following : List Step) (no_quote : 34 ∉ lead) (ne_zero : 0 ∉ lead)
    (nonzero : 0 ∉ name) (key : step.KeyPassed)
    (nonempty : rawText step.member.key ≠ [])
    (isPrefix : name <+: rawText step.member.key) (behind : CharPtr) :
    let val := valueText step.member.value ++
      (step.behind.bytes ++ (stepsText following ++ 0 :: behind))
    let valLen := valueLen (typeOf step.member.value) val
    valLen ≠ 0 →
      search name (lead ++ (stepsText (step :: following) ++ 0 :: behind)) =
        some (val, valLen) := by
  intro val valLen reported
  let rest := stepsText following ++ 0 :: behind
  have found := jsonGetNextObject_step no_quote ne_zero key rest
  dsimp only at found
  have pos_eq : lead ++ (stepsText (step :: following) ++ 0 :: behind) =
      lead ++ 34 :: (step.keyText ++ rest) := by
    simp [stepsText, rest]
  have keyLen : step.keyLen ≠ 0 := Step.keyLen_ne_zero.mpr nonempty
  have same : strncmpEq (step.keyText ++ rest) name name.length = true := by
    rw [strncmpEq_iff nonzero]
    refine isPrefix.trans ?_
    rw [Step.keyText, List.append_assoc]
    exact List.prefix_append ..
  have answers : ∀ entry : Entry, entry.key = step.keyText ++ rest →
      entry.keyLen = step.keyLen → entry.valLen = valLen →
      (entry.reported && strncmpEq entry.key name name.length) = true := by
    intro entry key_eq keyLen_eq valLen_eq
    rw [key_eq, same, Bool.and_true, Entry.reported, keyLen_eq, valLen_eq]
    simp [keyLen, reported]
  rw [pos_eq, search_eq (deref_append_ne_zero ne_zero (by decide) _) found,
    answers _ rfl rfl rfl]
  rfl

/-- The search ends at a member of the name that it reports. -/
theorem search_target {name lead : List UInt8} {step : Step}
    (following : List Step) (no_quote : 34 ∉ lead) (ne_zero : 0 ∉ lead)
    (nonempty : name ≠ []) (nonzero : 0 ∉ name) (target : step.Target name)
    (behind : CharPtr) :
    let val := valueText step.member.value ++
      (step.behind.bytes ++ (stepsText following ++ 0 :: behind))
    let valLen := valueLen (typeOf step.member.value) val
    valLen ≠ 0 →
      search name (lead ++ (stepsText (step :: following) ++ 0 :: behind)) =
        some (val, valLen) := by
  obtain ⟨-, key, isPrefix⟩ := target
  refine search_begins following no_quote ne_zero nonzero key ?_ isPrefix behind
  intro empty
  rw [empty] at isPrefix
  exact nonempty (List.prefix_nil.mp isPrefix)

/-- What is left over of a value, and the gap behind it. -/
theorem Step.leftOver_no_quote (step : Step) :
    34 ∉ leftOver step.member.value ++ step.behind.bytes := by
  simp [(leftOver_clean step.member.value).1, step.behind.no_quote]

theorem Step.leftOver_ne_zero (step : Step) :
    0 ∉ leftOver step.member.value ++ step.behind.bytes := by
  simp [(leftOver_clean step.member.value).2.1, step.behind.ne_zero]

/-- Nothing answers to the name. -/
theorem search_passesBy {name lead : List UInt8} {steps : List Step}
    (no_quote : 34 ∉ lead) (ne_zero : 0 ∉ lead) (nonzero : 0 ∉ name)
    (passed : PassesBy name steps) (behind : CharPtr) :
    search name (lead ++ (stepsText steps ++ 0 :: behind)) = none := by
  induction steps generalizing lead with
  | nil => exact search_none no_quote ne_zero behind
  | cons step steps inductionHypothesis =>
      rw [search_skipped no_quote ne_zero nonzero passed.1]
      exact inductionHypothesis step.leftOver_no_quote step.leftOver_ne_zero
        passed.2

/-! ## Following a path -/

/-- Nothing leads the scan astray on the path, which begins at the first of the
inner members, those left of an object; the outer members are those behind it in
the objects around it. -/
inductive Clear : (path : List (List UInt8)) → (inner outer : List Step) → Prop
  /-- The object has no such member, and none behind it answers instead. -/
  | missing {name path outer} (passed : PassesBy name outer) :
      Clear (name :: path) [] outer
  /-- Another member of the object is passed. -/
  | skip {name path step inner outer}
      (different : ¬step.member.Named name)
      (skipped : step.Skipped name (inner ++ outer))
      (later : Clear (name :: path) inner outer) :
      Clear (name :: path) (step :: inner) outer
  /-- The path ends at a member, whose value is cut out in whole and not
  empty. -/
  | found {name step inner outer}
      (target : step.Target name)
      (nonempty : step.member.value.content ≠ [])
      (passed : Passed step.member.value)
      (whole : leftOver step.member.value = []) :
      Clear [name] (step :: inner) outer
  /-- The path goes on in an object. -/
  | enter {name next path step inner outer gap members}
      (target : step.Target name)
      (value : step.member.value = .object gap members)
      (closes : Closes 123 125 (step.member.value.text ++
        (step.behind.bytes ++ stepsText (inner ++ outer))))
      (inside : Clear (next :: path)
        (objectSteps step.behind.bytes step.behind.no_quote
          step.behind.ne_zero members) (inner ++ outer)) :
      Clear (name :: next :: path) (step :: inner) outer
  /-- The path cannot go on in a value that neither is nor looks like an
  object. -/
  | blocked {name next path step inner outer}
      (target : step.Target name)
      (nonempty : step.member.value.content ≠ [])
      (notObject : ∀ gap members, step.member.value ≠ .object gap members)
      (closes : ∀ gap elements, step.member.value = .array gap elements →
        Closes 91 93 (step.member.value.text ++
          (step.behind.bytes ++ stepsText (inner ++ outer))))
      (noBrace : ∀ items, step.member.value = .string items →
        ((rawText items).dropWhile (· = 32)).head? ≠ some 123) :
      Clear (name :: next :: path) (step :: inner) outer

/-- The rest of a path, from a position inside an object on. -/
def valueFrom (path : List (List UInt8)) (pos : CharPtr) :
    Option (CharPtr × Nat) :=
  match path with
  | [] => none
  | [name] => search name pos
  | name :: next :: path =>
      match search name pos with
      | none => none
      | some (value, _) => valueAlong (next :: path) value

theorem valueAlong_eq (name : List UInt8) (path : List (List UInt8))
    (src : CharPtr) :
    valueAlong (name :: path) src =
      match jsonGetObject src with
      | none => none
      | some pos => valueFrom (name :: path) pos := by
  have found : jsonGetValueByName src name =
      match jsonGetObject src with
      | none => none
      | some pos => search name pos := by
    unfold jsonGetValueByName jsonObjectForEachKv
    cases jsonGetObject src <;> rfl
  cases path with
  | nil =>
      rw [valueAlong, found]
      cases jsonGetObject src <;> rfl
  | cons next path =>
      rw [valueAlong, found]
      cases jsonGetObject src <;> rfl

/-- The text of a value that begins with `{`. -/
theorem jsonGetObject_object (gap : Blanks) (members : List (Member Value))
    (rest : CharPtr) :
    jsonGetObject ((Value.object gap members).text ++ rest) =
      some ((Value.object gap members).text ++ rest) := by
  simp [Value.text, jsonGetObject]

theorem jsonGetObject_string {text : List UInt8} (nonzero : 0 ∉ text)
    (noBrace : (text.dropWhile (· = 32)).head? ≠ some 123) (rest : CharPtr) :
    jsonGetObject (text ++ 34 :: rest) = none := by
  induction text with
  | nil => rfl
  | cons byte text inductionHypothesis =>
      simp only [List.mem_cons, not_or] at nonzero
      rw [List.cons_append, jsonGetObject, if_neg (Ne.symm nonzero.1)]
      by_cases blank : byte = 32
      · rw [if_pos blank]
        exact inductionHypothesis nonzero.2 (by simpa [blank] using noBrace)
      · rw [if_neg blank, if_neg]
        rintro rfl
        exact noBrace (by simp)

/-- No object begins at a value that neither is nor looks like one. -/
theorem jsonGetObject_scalar {value : Value}
    (notObject : ∀ gap members, value ≠ .object gap members)
    (noBrace : ∀ items, value = .string items →
      ((rawText items).dropWhile (· = 32)).head? ≠ some 123)
    (rest : CharPtr) : jsonGetObject (valueText value ++ rest) = none := by
  cases value with
  | string items =>
      have answer := jsonGetObject_string (rawText_ne_zero items)
        (noBrace items rfl) rest
      simpa [valueText] using answer
  | number number =>
      obtain ⟨byte, digits, mantissa, first, -⟩ := mantissa_cons number
      have plain : byte ≠ 0 ∧ byte ≠ 32 ∧ byte ≠ 123 := by
        rcases first with rfl | ⟨low, high⟩
        · decide
        · refine ⟨?_, ?_, ?_⟩ <;> rintro rfl <;> revert low high <;> decide
      simp [valueText, Value.text, Number.bytes, mantissa, jsonGetObject,
        plain]
  | literal literal => cases literal <;> rfl
  | array gap elements => simp [valueText, Value.text, jsonGetObject]
  | object gap members => exact absurd rfl (notObject gap members)

theorem numberLen_ne_zero {text : List UInt8} (nonzero : 0 ∉ text)
    {next : UInt8} (delimits : Delimits next) (rest : CharPtr) {count : Nat}
    (counted : count ≠ 0) : numberLen (text ++ next :: rest) count ≠ 0 := by
  induction text generalizing count with
  | nil =>
      rw [List.nil_append, numberLen, if_neg delimits.1, if_pos delimits.2]
      exact counted
  | cons byte text inductionHypothesis =>
      simp only [List.mem_cons, not_or] at nonzero
      rw [List.cons_append, numberLen, if_neg (Ne.symm nonzero.1)]
      split
      · exact counted
      · exact inductionHypothesis nonzero.2 (Nat.succ_ne_zero _)

theorem markedLen_quote_some {text : List UInt8} (nonzero : 0 ∉ text)
    (rest : CharPtr) (count : Nat) :
    ∃ len, count ≤ len ∧
      markedLen 34 34 (text ++ 34 :: rest) 0 count = some len := by
  induction text generalizing count with
  | nil => exact ⟨count, Nat.le_refl _, rfl⟩
  | cons byte text inductionHypothesis =>
      simp only [List.mem_cons, not_or] at nonzero
      rw [List.cons_append, markedLen, if_neg (Ne.symm nonzero.1)]
      by_cases closes : byte = 34
      · exact ⟨count, Nat.le_refl _, by rw [if_pos closes, if_pos rfl]⟩
      · obtain ⟨len, more, found⟩ := inductionHypothesis nonzero.2 (count + 1)
        refine ⟨len, Nat.le_of_succ_le more, ?_⟩
        rw [if_neg closes, if_neg closes, found]

/-- A value in marks that are closed somewhere has a length. -/
theorem marked_ne_zero {opening closing : UInt8}
    (different : opening ≠ closing) {text : List UInt8} (nonzero : 0 ∉ text)
    (closes : Closes opening closing (opening :: text)) (beyond : CharPtr) :
    ((markedLen opening closing (text ++ 0 :: beyond) 0 1).map
      (· + 1)).getD 0 ≠ 0 := by
  have found := markedLen_of_closes different nonzero closes beyond
  cases answer : markedLen opening closing (text ++ 0 :: beyond) 0 1 with
  | none => exact absurd answer found
  | some len => exact Nat.succ_ne_zero len

/-- A reported value has a length. -/
theorem valueLen_ne_zero (value : Value) (nonempty : value.content ≠ [])
    {behind : List UInt8} (ne_zero : 0 ∉ behind)
    (delimits : ∃ first rest, behind = first :: rest ∧ Delimits first)
    (arrayCloses : ∀ gap elements, value = .array gap elements →
      Closes 91 93 (value.text ++ behind))
    (objectCloses : ∀ gap members, value = .object gap members →
      Closes 123 125 (value.text ++ behind)) (beyond : CharPtr) :
    valueLen (typeOf value) (valueText value ++ (behind ++ 0 :: beyond)) ≠
      0 := by
  have nonzero := value.ne_zero
  obtain ⟨first, rest, rfl, delimits⟩ := delimits
  cases value with
  | string items =>
      cases items with
      | nil => exact absurd rfl nonempty
      | cons item items =>
          have begins : ∃ byte text, rawText (item :: items) = byte :: text ∧
              byte ≠ 34 := by
            cases item with
            | plain byte allowed => exact ⟨byte, _, rfl, allowed.2.1⟩
            | escape code => exact ⟨92, _, rfl, by decide⟩
            | unicode a b c d => exact ⟨92, _, rfl, by decide⟩
          obtain ⟨byte, text, raw, plain⟩ := begins
          have clean := rawText_ne_zero (item :: items)
          rw [raw] at clean
          simp only [List.mem_cons, not_or] at clean
          obtain ⟨len, more, found⟩ := markedLen_quote_some clean.2
            (first :: (rest ++ 0 :: beyond)) 1
          simp only [typeOf, valueText, valueLen, raw]
          simp only [List.cons_append, List.append_assoc, List.nil_append]
          rw [markedLen, if_neg (Ne.symm clean.1), if_neg plain, if_neg plain,
            found]
          exact Nat.ne_of_gt more
  | number number =>
      obtain ⟨byte, digits, mantissa, -⟩ := mantissa_cons number
      have bytes : ∃ text, number.bytes = byte :: text := by
        unfold Number.bytes
        exact ⟨_, by rw [mantissa]; rfl⟩
      obtain ⟨text, bytes⟩ := bytes
      have clean := number.ne_zero
      rw [bytes] at clean
      simp only [List.mem_cons, not_or] at clean
      simp only [typeOf, valueText, valueLen, Value.text, bytes,
        List.cons_append, List.tail_cons]
      exact numberLen_ne_zero clean.2 delimits _ Nat.one_ne_zero
  | literal literal =>
      cases literal with
      | true => exact (by decide : (4 : Nat) ≠ 0)
      | false => exact (by decide : (5 : Nat) ≠ 0)
      | null => exact (by decide : (4 : Nat) ≠ 0)
  | array gap elements =>
      have closes := arrayCloses gap elements rfl
      simp only [Value.text, List.mem_cons, not_or, List.cons_append]
        at nonzero closes
      have clean : 0 ∉ gap.bytes ++ elementsText elements ++ [93] ++
          first :: rest := by
        simp only [List.mem_append, List.mem_cons, not_or] at nonzero ne_zero ⊢
        exact ⟨nonzero.2, ne_zero⟩
      have found := marked_ne_zero (by decide) clean closes beyond
      simpa [typeOf, valueText, valueLen, Value.text] using found
  | object gap members =>
      have closes := objectCloses gap members rfl
      simp only [Value.text, List.mem_cons, not_or, List.cons_append]
        at nonzero closes
      have clean : 0 ∉ gap.bytes ++ membersText members ++ [125] ++
          first :: rest := by
        simp only [List.mem_append, List.mem_cons, not_or] at nonzero ne_zero ⊢
        exact ⟨nonzero.2, ne_zero⟩
      have found := marked_ne_zero (by decide) clean closes beyond
      simpa [typeOf, valueText, valueLen, Value.text] using found

theorem objectSteps_member (closing : List UInt8) (no_quote : 34 ∉ closing)
    (ne_zero : 0 ∉ closing) (members : List (Member Value)) :
    (objectSteps closing no_quote ne_zero members).map Step.member =
      members := by
  induction members with
  | nil => rfl
  | cons member members inductionHypothesis =>
      cases members with
      | nil => rfl
      | cons next rest => exact congrArg (member :: ·) inductionHypothesis

/-- What `HAL_Snprintf` copies of a value. -/
def copied (found : CharPtr × Nat) : List UInt8 :=
  (cString found.1).take found.2

theorem copied_eq {text : List UInt8} (nonzero : 0 ∉ text) (rest : CharPtr) :
    copied (text ++ rest, text.length) = text := by
  have passes : ∀ byte ∈ text, decide (byte ≠ 0) = true := fun byte mem =>
    decide_eq_true fun zero => nonzero (zero ▸ mem)
  unfold copied cString
  rw [List.takeWhile_append_of_pos passes, List.take_left' rfl]

theorem copied_value (value : Value) (rest : CharPtr) :
    copied (valueText value ++ rest, value.content.length) =
      value.content := by
  have begins : ∃ more, valueText value ++ rest = value.content ++ more := by
    cases value with
    | string items => exact ⟨[34] ++ rest, by simp [valueText, Value.content]⟩
    | _ => exact ⟨rest, rfl⟩
  obtain ⟨more, begins⟩ := begins
  rw [begins]
  exact copied_eq value.content_ne_zero more

/-- Along a clear path the value at its end is found. -/
theorem valueFrom_of_clear {path : List (List UInt8)}
    {inner outer : List Step} (clear : Clear path inner outer)
    (keys : ∀ name ∈ path, name ≠ [] ∧ 0 ∉ name) {lead : List UInt8}
    (no_quote : 34 ∉ lead) (ne_zero : 0 ∉ lead) (behind : CharPtr) :
    (valueFrom path
        (lead ++ (stepsText (inner ++ outer) ++ 0 :: behind))).map copied =
      (valueAt path (.object .none (inner.map Step.member))).map
        Value.content := by
  induction clear generalizing lead with
  | @missing name path outer passed =>
      have searched := search_passesBy no_quote ne_zero
        (keys name (List.mem_cons_self ..)).2 passed behind
      cases path <;> rw [valueFrom, List.nil_append, searched] <;> rfl
  | @skip name path step inner outer different skipped later
      inductionHypothesis =>
      have searched := search_skipped no_quote ne_zero
        (keys name (List.mem_cons_self ..)).2 skipped behind
      have rest := inductionHypothesis keys step.leftOver_no_quote
        step.leftOver_ne_zero
      have passed : ∀ path, valueAt (name :: path)
          (.object .none ((step :: inner).map Step.member)) =
          valueAt (name :: path) (.object .none (inner.map Step.member)) := by
        intro path
        simp only [valueAt, memberValue, List.map_cons]
        rw [List.find?_cons_of_neg (by simpa using different)]
      rw [passed, ← rest, List.cons_append]
      cases path <;> rw [valueFrom, searched, valueFrom]
  | @found name step inner outer target nonempty passed whole =>
      obtain ⟨first, others, bytes, delimits⟩ := step.behind.delimits
      have length_eq := valueLen_of_passed passed delimits
        (others ++ (stepsText (inner ++ outer) ++ 0 :: behind))
      rw [← List.cons_append, ← bytes, whole, List.length_nil, Nat.add_zero]
        at length_eq
      have reported : step.member.value.content.length ≠ 0 :=
        fun zero => nonempty (List.length_eq_zero_iff.mp zero)
      have searched := search_target (inner ++ outer) no_quote
        ne_zero (keys name (List.mem_cons_self ..)).1
        (keys name (List.mem_cons_self ..)).2 target behind
      dsimp only at searched
      rw [length_eq] at searched
      have named := target.1
      rw [valueFrom, List.cons_append, searched reported, Option.map_some,
        copied_value]
      simp only [valueAt, memberValue, List.map_cons]
      rw [List.find?_cons_of_pos (by simpa using named)]
      rfl
  | @enter name next path step inner outer gap members target value closes
      inside inductionHypothesis =>
      let following := stepsText (inner ++ outer)
      have clean : 0 ∉ step.behind.bytes ++ following := by
        simp [following, step.behind.ne_zero, stepsText_ne_zero]
      have delimits : ∃ first rest, step.behind.bytes ++ following =
          first :: rest ∧ Delimits first := by
        obtain ⟨first, others, bytes, delimits⟩ := step.behind.delimits
        exact ⟨first, others ++ following, by rw [bytes]; rfl, delimits⟩
      have reported := valueLen_ne_zero step.member.value
        (by rw [value]; simp [Value.content, Value.text]) clean delimits
        (fun gap elements other => by rw [value] at other; cases other)
        (fun _ _ _ => closes) behind
      rw [List.append_assoc] at reported
      have searched := search_target (inner ++ outer) no_quote
        ne_zero (keys name (List.mem_cons_self ..)).1
        (keys name (List.mem_cons_self ..)).2 target behind reported
      have lead_clean := objectLead_no_quote step.behind.no_quote gap members
      have lead_zero := objectLead_ne_zero step.behind.ne_zero gap members
      have rest := inductionHypothesis
        (fun name mem => keys name (List.mem_cons_of_mem _ mem)) lead_clean
        lead_zero
      have text_eq : valueText step.member.value ++
          (step.behind.bytes ++ (following ++ 0 :: behind)) =
          objectLead step.behind.bytes gap members ++
            (stepsText (objectSteps step.behind.bytes step.behind.no_quote
              step.behind.ne_zero members ++ (inner ++ outer)) ++
                0 :: behind) := by
        have opened := object_text step.behind.bytes step.behind.no_quote
          step.behind.ne_zero gap members
        have written : valueText (.object gap members) =
            (Value.object gap members).text := rfl
        rw [value, written, ← List.append_assoc, opened, stepsText_append]
        simp [following]
      have opens : jsonGetObject (valueText step.member.value ++
          (step.behind.bytes ++ (following ++ 0 :: behind))) =
          some (valueText step.member.value ++
            (step.behind.bytes ++ (following ++ 0 :: behind))) := by
        rw [value]
        exact jsonGetObject_object ..
      have named := target.1
      rw [valueFrom, List.cons_append, searched]
      dsimp only
      rw [valueAlong_eq, opens]
      dsimp only
      rw [text_eq, rest, objectSteps_member]
      simp only [valueAt, memberValue, List.map_cons]
      rw [List.find?_cons_of_pos (by simpa using named)]
      simp [value, valueAt, memberValue]
  | @blocked name next path step inner outer target nonempty notObject closes
      noBrace =>
      let following := stepsText (inner ++ outer)
      have clean : 0 ∉ step.behind.bytes ++ following := by
        simp [following, step.behind.ne_zero, stepsText_ne_zero]
      have delimits : ∃ first rest, step.behind.bytes ++ following =
          first :: rest ∧ Delimits first := by
        obtain ⟨first, others, bytes, delimits⟩ := step.behind.delimits
        exact ⟨first, others ++ following, by rw [bytes]; rfl, delimits⟩
      have reported := valueLen_ne_zero step.member.value nonempty clean
        delimits closes
        (fun gap members other => absurd other (notObject gap members)) behind
      rw [List.append_assoc] at reported
      have searched := search_target (inner ++ outer) no_quote
        ne_zero (keys name (List.mem_cons_self ..)).1
        (keys name (List.mem_cons_self ..)).2 target behind reported
      have stops := jsonGetObject_scalar notObject noBrace
        (step.behind.bytes ++ (following ++ 0 :: behind))
      have named := target.1
      rw [valueFrom, List.cons_append, searched]
      dsimp only
      rw [valueAlong_eq, stops]
      simp only [valueAt, memberValue, List.map_cons]
      rw [List.find?_cons_of_pos (by simpa using named)]
      cases value : step.member.value with
      | object gap members => exact absurd value (notObject gap members)
      | _ => simp [value, valueAt]

/-! ## Documents -/

/-- The steps of a scan through a document. -/
def documentSteps (document : ObjectDocument) : List Step :=
  objectSteps document.after.bytes (Blanks.no_quote _) (Blanks.ne_zero _)
    document.members

/-- Nothing leads `LITE_json_value_of` astray on the path in the document. -/
def ClearPath (document : ObjectDocument) (path : List (List UInt8)) : Prop :=
  (∀ byte ∈ document.before.bytes, byte = 32) ∧
    Clear path (documentSteps document) []

theorem jsonGetObject_spaces {spaces : List UInt8}
    (space : ∀ byte ∈ spaces, byte = 32) (rest : CharPtr) :
    jsonGetObject (spaces ++ rest) = jsonGetObject rest := by
  induction spaces with
  | nil => rfl
  | cons byte spaces inductionHypothesis =>
      obtain rfl := space byte (List.mem_cons_self ..)
      rw [List.cons_append, jsonGetObject, if_neg (by decide), if_pos rfl]
      exact inductionHypothesis fun other mem =>
        space other (List.mem_cons_of_mem _ mem)

/-- Behind the opening brace of a document its members follow. -/
theorem jsonGetObject_document {document : ObjectDocument}
    (spaces : ∀ byte ∈ document.before.bytes, byte = 32) (behind : CharPtr) :
    jsonGetObject (document.text ++ 0 :: behind) =
      some (objectLead document.after.bytes document.gap document.members ++
        (stepsText (documentSteps document) ++ 0 :: behind)) := by
  obtain ⟨before, gap, members, after⟩ := document
  have text_eq := object_text after.bytes (Blanks.no_quote after)
    after.ne_zero gap members
  unfold ObjectDocument.text ObjectDocument.value
  rw [List.append_assoc, List.append_assoc, jsonGetObject_spaces spaces,
    jsonGetObject_object, ← List.append_assoc, text_eq, documentSteps,
    List.append_assoc]

/-- On a clear path `LITE_json_value_of` answers the value at its end. -/
theorem liteJsonValueOf_eq (document : ObjectDocument)
    (path : List (List UInt8)) (nonempty : path ≠ [])
    (keys : ∀ name ∈ path, name ≠ [] ∧ 46 ∉ name ∧ 0 ∉ name)
    (clear : ClearPath document path) (behind : CharPtr) :
    liteJsonValueOf ([46].intercalate path) (document.text ++ 0 :: behind) =
      (valueAt path document.value).map Value.content := by
  obtain ⟨spaces, clear⟩ := clear
  have found := valueFrom_of_clear clear
    (fun name mem => ⟨(keys name mem).1, (keys name mem).2.2⟩)
    (objectLead_no_quote (Blanks.no_quote document.after) document.gap
      document.members)
    (objectLead_ne_zero document.after.ne_zero document.gap document.members)
    behind
  unfold liteJsonValueOf
  rw [List.splitOn_intercalate 46 (fun name mem => (keys name mem).2.1)
    nonempty]
  cases path with
  | nil => exact absurd rfl nonempty
  | cons name path =>
      rw [List.append_nil] at found
      rw [valueAlong_eq, jsonGetObject_document spaces]
      refine found.trans ?_
      rw [documentSteps, objectSteps_member]
      rfl

/-! ## Samples -/

/-- A member without blanks. -/
def tightMember (key : List StringItem) (value : Value) : Member Value :=
  ⟨key, .none, .none, value, .none, .none⟩

/-- A document without blanks. -/
def tightDocument (members : List (Member Value)) : ObjectDocument :=
  ⟨.none, .none, members, .none⟩

/-- Their numerals. -/
scoped instance digitsNeZero : NeZero 10 := ⟨by decide⟩

scoped instance lettersNeZero : NeZero 26 := ⟨by decide⟩

/-- A number of one digit. -/
def digit (value : Fin 10) : Value :=
  .number
    { negative := false
      whole :=
        { bytes := [UInt8.ofNat (48 + value.val)]
          some_digit := by simp
          digit := by revert value; decide +kernel }
      noLeadingZero := by revert value; decide +kernel
      fraction := none
      exponent := none }

/-- A letter. -/
def letter (index : Fin 26) : StringItem :=
  .plain (UInt8.ofNat (97 + index.val)) (by revert index; decide)

/-- The document `{"ab":1,"a":2}`. -/
def prefixSibling : ObjectDocument :=
  tightDocument
    [tightMember [letter 0, letter 1] (digit 1),
      tightMember [letter 0] (digit 2)]

/-- The document `{"a":{"c":1},"b":2}`. -/
def outerSibling : ObjectDocument :=
  tightDocument
    [tightMember [letter 0]
        (.object .none [tightMember [letter 2] (digit 1)]),
      tightMember [letter 1] (digit 2)]

/-- The document `{"a":""}`. -/
def emptyString : ObjectDocument :=
  tightDocument [tightMember [letter 0] (.string [])]

/-- The path `a.c` in `{"a":{"c":1},"b":2}` is clear. -/
theorem liteJsonValueOf_outerSibling :
    ClearPath outerSibling [[97], [99]] ∧
      liteJsonValueOf [97, 46, 99] (outerSibling.text ++ [0]) =
        (valueAt [[97], [99]] outerSibling.value).map Value.content := by
  have clear : ClearPath outerSibling [[97], [99]] := by
    refine ⟨by decide +kernel,
      .enter ⟨by decide +kernel, by decide +kernel, by decide +kernel⟩ rfl ?_
        (.found ⟨by decide +kernel, by decide +kernel, by decide +kernel⟩
          (by decide +kernel) trivial rfl)⟩
    exact ⟨(Value.object .none [tightMember [letter 2] (digit 1)]).text,
      List.prefix_append .., by decide +kernel, by decide +kernel⟩
  exact ⟨clear, liteJsonValueOf_eq outerSibling [[97], [99]] (by decide)
    (by decide) clear []⟩

/-- A key that only begins with the name answers to it, a path goes on behind
the end of its object, and an empty string is not found. -/
theorem liteJsonValueOf_astray :
    (liteJsonValueOf [97] (prefixSibling.text ++ [0]) = some [49] ∧
      (valueAt [[97]] prefixSibling.value).map Value.content = some [50]) ∧
    (liteJsonValueOf [97, 46, 98] (outerSibling.text ++ [0]) = some [50] ∧
      (valueAt [[97], [98]] outerSibling.value).map Value.content = none) ∧
    (liteJsonValueOf [97] (emptyString.text ++ [0]) = none ∧
      (valueAt [[97]] emptyString.value).map Value.content = some []) := by
  refine ⟨⟨?_, ?_⟩, ⟨?_, ?_⟩, ⟨?_, ?_⟩⟩ <;> decide +kernel

end Json
end UIoT
