import UIoT.Json.Lookup

/-!
# Looking a name up among the members

`LITE_json_value_of` answers a name with the first member the key of which
begins with it, unless its key or its value is empty.  The scan has to come
through that member and those in front of it without losing its way; what
follows them it never reads.
-/

namespace UIoT
namespace Json

open JsonSyntax

/-! ## Members that are met -/

/-- The search takes the member for one of the name. -/
def Member.Meets (name : List UInt8) (member : Member Value) : Prop :=
  rawText member.key ≠ [] ∧ member.value.content ≠ [] ∧
    name <+: rawText member.key

instance (name : List UInt8) (member : Member Value) :
    Decidable (Member.Meets name member) :=
  inferInstanceAs (Decidable (_ ∧ _))

/-- What the scan cuts out of a value: a number loses its exponent. -/
def slice (value : Value) : List UInt8 :=
  value.content.take (value.content.length - (leftOver value).length)

/-- The scan comes through the member: no colon follows a quote in its key, a
string has no quote in it, and the brackets of an array or an object are
balanced. -/
def Member.Clean (member : Member Value) : Prop :=
  58 ∉ (rawText member.key).dropWhile (· ≠ 34) ∧ Passed member.value

/-- The scan comes through the members up to the first that meets the name. -/
def ScansTo (name : List UInt8) : List (Member Value) → Prop
  | [] => True
  | member :: members =>
      Member.Clean member ∧ (Member.Meets name member ∨ ScansTo name members)

/-- The scan for the name comes through the document. -/
structure Scanned (name : List UInt8) (document : ObjectDocument) : Prop where
  spaces : ∀ byte ∈ document.before.bytes, byte = 32
  members : ScansTo name document.members

/-- The scan comes through members that are all clean, whatever it looks for. -/
theorem ScansTo.of_clean (name : List UInt8) {members : List (Member Value)}
    (clean : ∀ member ∈ members, Member.Clean member) :
    ScansTo name members := by
  induction members with
  | nil => trivial
  | cons member members inductionHypothesis =>
      obtain ⟨first, later⟩ := List.forall_mem_cons.mp clean
      exact ⟨first, .inr (inductionHypothesis later)⟩

/-- The member met is one the scan comes through. -/
theorem ScansTo.clean_of_met {name : List UInt8} {members : List (Member Value)}
    (scans : ScansTo name members) {member : Member Value}
    (met : members.find? (fun member => Member.Meets name member) =
      some member) : Member.Clean member := by
  induction members with
  | nil => cases met
  | cons first members inductionHypothesis =>
      obtain ⟨clean, meets | later⟩ := scans
      · rw [List.find?_cons_of_pos (by simpa using meets)] at met
        cases met
        exact clean
      · rw [List.find?_cons] at met
        split at met
        · cases met
          exact clean
        · exact inductionHypothesis later met

/-! ## The search -/

/-- Something is cut out of a value that is not empty. -/
theorem leftOver_lt {value : Value} (nonempty : value.content ≠ []) :
    (leftOver value).length < value.content.length := by
  cases value with
  | number number =>
      obtain ⟨byte, rest, mantissa, -⟩ := mantissa_cons number
      have content : (Value.number number).content =
          number.mantissa ++ exponentText number.exponent := rfl
      have left : leftOver (.number number) = exponentText number.exponent :=
        rfl
      rw [content, left, mantissa, List.length_append, List.length_cons]
      omega
  | string items => exact List.length_pos_iff.mpr nonempty
  | literal literal => exact List.length_pos_iff.mpr nonempty
  | array gap elements => exact List.length_pos_iff.mpr nonempty
  | object gap members => exact List.length_pos_iff.mpr nonempty

/-- What is copied of a value of which not more than its content was counted. -/
theorem copied_take (value : Value) (rest : CharPtr) {count : Nat}
    (bound : count ≤ value.content.length) :
    copied (valueText value ++ rest, count) = value.content.take count := by
  have whole := copied_value value rest
  unfold copied at whole ⊢
  dsimp only at whole ⊢
  rw [← whole, List.take_take, Nat.min_eq_left bound]

/-- A name without a quote begins the text of a member exactly if it begins its
key. -/
theorem prefix_keyText_iff {name : List UInt8} (unquoted : 34 ∉ name)
    (step : Step) (rest : List UInt8) :
    name <+: step.keyText ++ rest ↔ name <+: rawText step.member.key := by
  rw [Step.keyText, List.append_assoc, List.cons_append]
  exact ⟨prefix_of_terminated unquoted,
    fun isPrefix => isPrefix.trans (List.prefix_append ..)⟩

/-- A search the scan comes through ends at the first member that meets the
name. -/
theorem search_members {name : List UInt8} (unquoted : 34 ∉ name)
    (nonzero : 0 ∉ name) {steps : List Step}
    (scans : ScansTo name (steps.map Step.member)) {lead : List UInt8}
    (no_quote : 34 ∉ lead) (ne_zero : 0 ∉ lead) (behind : CharPtr) :
    (search name (lead ++ (stepsText steps ++ 0 :: behind))).map copied =
      ((steps.map Step.member).find? fun member =>
        Member.Meets name member).map fun member => slice member.value := by
  induction steps generalizing lead with
  | nil =>
      have nothing : search name (lead ++ 0 :: behind) = none :=
        search_none no_quote ne_zero behind
      rw [stepsText, List.nil_append, nothing]
      rfl
  | cons step steps inductionHypothesis =>
      obtain ⟨⟨key, passed⟩, later⟩ := scans
      have key : step.KeyPassed := key
      rw [List.map_cons]
      by_cases meets : Member.Meets name step.member
      · obtain ⟨named, nonempty, isPrefix⟩ := meets
        obtain ⟨first, others, bytes, delimits⟩ := step.behind.delimits
        have cut := valueLen_of_passed passed delimits
          (others ++ (stepsText steps ++ 0 :: behind))
        rw [← List.cons_append, ← bytes] at cut
        have shorter := leftOver_lt nonempty
        have found := search_begins steps no_quote ne_zero nonzero key named
          isPrefix behind (by omega)
        rw [found, Option.map_some, copied_take _ _ (by omega),
          List.find?_cons_of_pos (by simp [Member.Meets, named, nonempty,
            isPrefix]), Option.map_some, slice]
        congr 2
        omega
      · have skipped : step.Skipped name steps :=
          ⟨key, passed, fun reported isPrefix => meets ⟨reported.1, reported.2,
            (prefix_keyText_iff unquoted step _).mp isPrefix⟩⟩
        rw [search_skipped no_quote ne_zero nonzero skipped,
          List.find?_cons_of_neg (by simpa using meets)]
        exact inductionHypothesis (later.resolve_left meets)
          step.leftOver_no_quote step.leftOver_ne_zero

/-- Where the scan comes through, a name without a dot or a quote is answered
with the first member that meets it. -/
theorem liteJsonValueOf_members {document : ObjectDocument} {name : List UInt8}
    (scanned : Scanned name document) (undotted : 46 ∉ name)
    (unquoted : 34 ∉ name) (nonzero : 0 ∉ name) (behind : CharPtr) :
    liteJsonValueOf name (document.text ++ 0 :: behind) =
      (document.members.find? fun member =>
        Member.Meets name member).map fun member => slice member.value := by
  obtain ⟨spaces, scans⟩ := scanned
  have members_eq :
      (documentSteps document).map Step.member = document.members :=
    objectSteps_member ..
  rw [← members_eq] at scans
  have found := search_members unquoted nonzero scans
    (objectLead_no_quote (Blanks.no_quote document.after) document.gap
      document.members)
    (objectLead_ne_zero document.after.ne_zero document.gap document.members)
    behind
  have single : name.splitOn 46 = [name] :=
    List.splitOn_eq_singleton undotted
  unfold liteJsonValueOf
  rw [single, valueAlong_eq, jsonGetObject_document spaces]
  dsimp only [valueFrom]
  rw [members_eq] at found
  exact found

/-! ## Names that are paths -/

/-- The part of a name in front of its first dot. -/
def firstPart (name : List UInt8) : List UInt8 :=
  (name.splitOn 46).headD []

theorem splitOn_eq_firstPart (name : List UInt8) :
    name.splitOn 46 = firstPart name :: (name.splitOn 46).tail := by
  obtain ⟨first, rest, parts⟩ :=
    List.exists_cons_of_ne_nil (List.splitOn_ne_nil 46 name)
  rw [firstPart, parts]
  rfl

theorem firstPart_begins (name : List UInt8) : firstPart name <+: name := by
  have begins : firstPart name <+:
      [46].intercalate (firstPart name :: (name.splitOn 46).tail) := by
    cases (name.splitOn 46).tail <;> simp [List.intercalate]
  rwa [← splitOn_eq_firstPart, List.intercalate_splitOn] at begins

/-- A name whose first part no member answers to is not found. -/
theorem liteJsonValueOf_passesBy {document : ObjectDocument}
    (spaces : ∀ byte ∈ document.before.bytes, byte = 32) {name : List UInt8}
    (passed : PassesBy (firstPart name) (documentSteps document))
    (nonzero : 0 ∉ name) (behind : CharPtr) :
    liteJsonValueOf name (document.text ++ 0 :: behind) = none := by
  have nothing := search_passesBy
    (objectLead_no_quote (Blanks.no_quote document.after) document.gap
      document.members)
    (objectLead_ne_zero document.after.ne_zero document.gap document.members)
    (fun zero => nonzero ((firstPart_begins name).subset zero)) passed behind
  unfold liteJsonValueOf
  rw [splitOn_eq_firstPart, valueAlong_eq, jsonGetObject_document spaces]
  dsimp only
  cases (name.splitOn 46).tail with
  | nil => rw [valueFrom, nothing, Option.map_none]
  | cons next path =>
      rw [valueFrom, nothing]
      rfl

/-- A member that the scan passes for the first part of a name does not meet the
name. -/
theorem PassesBy.not_meets {name : List UInt8} {steps : List Step}
    (passed : PassesBy (firstPart name) steps) {member : Member Value}
    (mem : member ∈ steps.map Step.member) : ¬Member.Meets name member := by
  induction steps with
  | nil => cases mem
  | cons step steps inductionHypothesis =>
      obtain ⟨⟨-, -, astray⟩, later⟩ := passed
      rcases List.mem_cons.mp mem with rfl | behind
      · rintro ⟨named, nonempty, isPrefix⟩
        refine astray ⟨named, nonempty⟩ ?_
        rw [Step.keyText, List.append_assoc]
        exact ((firstPart_begins name).trans isPrefix).trans
          (List.prefix_append ..)
      · exact inductionHypothesis later behind

end Json
end UIoT
