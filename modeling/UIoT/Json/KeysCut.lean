import UIoT.Json.CutValues

/-!
# Keys of a cut object

Where an object is cut, the loop of `LITE_json_keys_of` reads the members in
front of the cut, and inside the object that is cut it takes the members for
those of the object around it.  It never finds as many keys as there are, unless
everything with a value stands in front of the cut.
-/

namespace UIoT
namespace Json

open JsonSyntax

/-! ## One member of a cut text -/

theorem blanks_open_nothing (blanks : Blanks) :
    ∀ byte ∈ blanks.bytes, ¬OpensValue byte := by
  intro byte mem
  rcases blanks.blank byte mem with rfl | rfl | rfl | rfl <;> decide

theorem forall_ne_of_not_mem {byte : UInt8} {text : List UInt8}
    (absent : byte ∉ text) : ∀ other ∈ text, ¬other = byte :=
  fun _ mem same => absent (same ▸ mem)

/-- The scan of a cut text finds the member it begins with. -/
theorem MemberScan.of_prefix {front : List UInt8} (scan : MemberScan front)
    {lead : List UInt8} (no_quote : 34 ∉ lead) {step : Step}
    (unquoted : 34 ∉ rawText step.member.key) {follow : List UInt8}
    (isPrefix : front <+: lead ++ 34 :: (step.keyText ++ follow)) :
    scan.key = rawText step.member.key ∧
      openedType scan.value.byte = typeOf step.member.value ∧
      scan.value.byte :: scan.value.rest <+:
        step.member.value.text ++ (step.behind.bytes ++ follow) := by
  obtain ⟨first, tail, text, opens, type, -⟩ := value_opens step.member.value
  rw [scan.text_eq] at isPrefix
  obtain ⟨-, -, isPrefix⟩ := first_prefix (· = 34)
    (forall_ne_of_not_mem scan.lead_no_quote) rfl
    (forall_ne_of_not_mem no_quote) rfl isPrefix
  rw [Step.keyText, List.append_assoc, List.cons_append] at isPrefix
  obtain ⟨key, -, isPrefix⟩ := first_prefix (· = 34)
    (forall_ne_of_not_mem scan.key_no_quote) rfl
    (forall_ne_of_not_mem unquoted) rfl isPrefix
  rw [List.append_assoc, List.cons_append] at isPrefix
  obtain ⟨-, -, isPrefix⟩ := first_prefix (· = 58)
    (forall_ne_of_not_mem scan.between_no_colon) rfl
    (forall_ne_of_not_mem (Blanks.no_colon _)) rfl isPrefix
  rw [scan.value.text_eq, List.append_assoc, List.append_assoc, text,
    List.cons_append] at isPrefix
  obtain ⟨-, same, isPrefix⟩ := first_prefix _ scan.value.plain scan.value.opens
    (blanks_open_nothing _) opens isPrefix
  refine ⟨key, same ▸ type, ?_⟩
  rw [text, List.cons_append]
  exact List.cons_prefix_cons.mpr ⟨same, isPrefix⟩

/-- A slice in front of the terminator. -/
theorem sliceText_terminated {text : List UInt8} (nonzero : 0 ∉ text)
    (behind : CharPtr) (len : Nat) :
    sliceText (text ++ 0 :: behind) len = text.take len := by
  have passes : ∀ byte ∈ text, decide (byte ≠ 0) = true := fun byte mem =>
    decide_eq_true fun zero => nonzero (zero ▸ mem)
  unfold sliceText cString
  rw [List.takeWhile_append_of_pos passes]
  simp

/-- Nothing is read where no quote is left. -/
theorem seenFrom_no_quote {pos : CharPtr} (absent : 34 ∉ pos) :
    seenFrom pos = [] := by
  have nothing : ∀ {str : CharPtr}, 34 ∉ str → strchr 34 str = none := by
    intro str absent
    induction str with
    | nil => rfl
    | cons byte str inductionHypothesis =>
        simp only [List.mem_cons, not_or] at absent
        rw [strchr, if_neg (Ne.symm absent.1)]
        split
        · rfl
        · exact inductionHypothesis absent.2
  apply seenFrom_none
  unfold jsonGetNextObject
  rw [nothing absent]

/-- A member whose keys can be counted in a cut text. -/
structure Countable (member : Member Value) : Prop where
  plain : PlainMember member
  quiet : member.value.arrayStrings = []

/-- The object of a member is kept in whole. -/
def Short (member : Member Value) : Prop :=
  ∀ gap others, member.value = .object gap others →
    member.value.text.length < tempStringMaxlen

/-- What the loop reads of a member that is read in whole. -/
theorem seenFrom_readWhole {front : List UInt8} (nonzero : 0 ∉ front)
    (scan : MemberScan front) {step : Step} (plain : PlainMember step.member)
    (key : scan.key = rawText step.member.key)
    (type : openedType scan.value.byte = typeOf step.member.value)
    {follow : List UInt8}
    (isPrefix : scan.value.byte :: scan.value.rest <+:
      step.member.value.text ++ follow)
    (read : ReadWhole step.member.value follow scan.value.valueText) :
    ∃ left, left <+: leftOver step.member.value ++ follow ∧
      left.length < front.length ∧
      seenFrom (front ++ [0]) =
        membersSeen [step.member] ++ seenFrom (left ++ [0]) ∧
      (front.length < tempStringMaxlen → Short step.member) := by
  have found := (jsonGetNextObject_iff nonzero []).mpr ⟨scan, rfl⟩
  have shorter := jsonGetNextObject_length found
  have stays : ¬scan.value.Hangs := by
    rintro ⟨quote, nothing⟩
    apply read.nonempty
    rw [ValueScan.valueText, openedValue, if_pos quote, nothing]
  have next : (scan.entry []).next =
      scan.value.valueText.drop scan.value.advance ++ [0] :=
    scan.value.element_next stays []
  have inside : scan.value.byte :: scan.value.rest <:+ front :=
    scan.value.rest_suffix.trans scan.fromColon_suffix
  have len_eq : scan.value.len =
      valueLen (typeOf step.member.value) scan.value.valueText := by
    rw [ValueScan.len, type]
  have advance_eq : scan.value.advance =
      if typeOf step.member.value = .string then
        valueLen (typeOf step.member.value) scan.value.valueText + 1
      else valueLen (typeOf step.member.value) scan.value.valueText := by
    rw [ValueScan.advance, type, len_eq]
  have length := read.length
  rw [← len_eq] at length
  have val_nonzero : 0 ∉ scan.value.valueText := fun mem =>
    nonzero (inside.mem (scan.value.valueText_suffix.mem mem))
  have val_le := (valueLen_le (typeOf step.member.value)
    scan.value.valueText).1
  rw [← len_eq] at val_le
  have suffix_le := scan.value.valueText_suffix.length_le
  have inside_le := inside.length_le
  refine ⟨_, read.next, ?_, ?_, ?_⟩
  · rw [← advance_eq]
    rw [next, List.length_append, List.length_append] at shorter
    exact Nat.lt_of_add_lt_add_right shorter
  · rw [seenFrom_eq found, next, advance_eq]
    congr 1
    apply seen_of_entry
    · have nonzero_key : 0 ∉ scan.key := fun mem =>
        nonzero (scan.text_eq ▸ by simp [mem])
      change sliceText (scan.key ++ 34 :: (scan.between ++ 58 ::
        scan.fromColon) ++ 0 :: []) scan.key.length = _
      rw [← key, List.append_assoc]
      exact sliceText_eq nonzero_key _
    · change scan.key.length ≠ 0
      rw [key]
      exact fun zero => plain.nonempty (List.length_eq_zero_iff.mp zero)
    · exact type
    · exact length
    · intro gap members value
      rw [value] at length isPrefix ⊢
      have length : scan.value.len =
          (Value.object gap members).text.length := length
      have brace : scan.value.byte = 123 := by
        rw [Value.text] at isPrefix
        exact (List.cons_prefix_cons.mp isPrefix).1
      have val_eq : scan.value.valueText =
          scan.value.byte :: scan.value.rest := by
        rw [ValueScan.valueText, openedValue, if_neg (by rw [brace]; decide)]
      have slice : (scan.value.byte :: scan.value.rest).take
          (Value.object gap members).text.length =
          (Value.object gap members).text := by
        rw [List.prefix_iff_eq_take.mp isPrefix, List.take_take,
          Nat.min_eq_left (by rw [← length, ← val_eq]; exact val_le)]
        exact List.take_left' rfl
      change sliceText (scan.value.valueText ++ 0 :: []) scan.value.len = _
      rw [sliceText_terminated val_nonzero, length, val_eq, slice]
  · intro bounded gap others value
    have content : step.member.value.content = step.member.value.text := by
      rw [value]
      rfl
    have none_left : leftOver step.member.value = [] := by
      rw [value]
      rfl
    rw [content, none_left, List.length_nil] at length
    omega

/-- What the loop reads of a member that is cut off. -/
theorem seenFrom_cutOff {front : List UInt8} (nonzero : 0 ∉ front)
    (scan : MemberScan front) {value : Value}
    (type : openedType scan.value.byte = typeOf value)
    (cut : CutOff value scan.value.valueText) :
    seenFrom (front ++ [0]) = [] ∨
      ∃ gap members left, value = .object gap members ∧
        left <+: value.text ∧ left.length < front.length ∧
        seenFrom (front ++ [0]) = seenFrom (left ++ [0]) := by
  have found := (jsonGetNextObject_iff nonzero []).mpr ⟨scan, rfl⟩
  have shorter := jsonGetNextObject_length found
  have zero : scan.value.len = 0 := by
    rw [ValueScan.len, type]
    exact cut.length
  have silent : (scan.entry []).reported = false := by
    have valLen : (scan.entry []).valLen = scan.value.len := rfl
    rw [Entry.reported, valLen, zero]
    simp
  have goesOn : seenFrom (front ++ [0]) = seenFrom (scan.entry []).next := by
    rw [seenFrom_eq found, silent]
    rfl
  have next : (scan.entry []).next =
      (scan.value.valueText ++ [0]).drop scan.value.advance := rfl
  rcases cut.inside with absent | ⟨gap, members, object, within⟩
  · left
    rw [goesOn, next]
    apply seenFrom_no_quote
    intro mem
    have inside := List.mem_of_mem_drop mem
    simp [absent] at inside
  · right
    have stays : scan.value.advance = 0 := by
      rw [ValueScan.advance, type, zero, object]
      rfl
    rw [stays, List.drop_zero] at next
    rw [next, List.length_append, List.length_append] at shorter
    exact ⟨gap, members, scan.value.valueText, object, within,
      Nat.lt_of_add_lt_add_right shorter, by rw [goesOn, next]⟩

/-! ## The members of a cut text -/

/-- How many keys there are for members. -/
def keyCount (members : List (Member Value)) : Nat :=
  (membersPaths members).length

theorem keyCount_cons (member : Member Value)
    (members : List (Member Value)) :
    keyCount (member :: members) =
      keyCount [member] + keyCount members := by
  simp [keyCount, membersPaths]

theorem keyCount_object {member : Member Value} {gap : Blanks}
    {members : List (Member Value)}
    (value : member.value = .object gap members) :
    keyCount [member] = keyCount members + 1 := by
  have nonempty : (Value.object gap members).content ≠ [] := by
    simp [Value.content, Value.text]
  simp [keyCount, membersPaths, memberPaths_eq, value, nonempty, Value.paths]

/-- There is nothing to read of members without keys. -/
theorem membersSeen_of_no_keys {members : List (Member Value)}
    (none_left : keyCount members = 0) : membersSeen members = [] := by
  induction members with
  | nil => rfl
  | cons member members inductionHypothesis =>
      rw [keyCount_cons] at none_left
      have first : keyCount [member] = 0 := by omega
      have empty : member.value.content = [] := by
        by_contra nonempty
        simp [keyCount, membersPaths, memberPaths_eq, nonempty] at first
      have later := inductionHypothesis (by omega)
      unfold membersSeen at later ⊢
      rw [List.filter_cons_of_neg (by simp [empty])]
      exact later

theorem membersSeen_cons (member : Member Value)
    (members : List (Member Value)) :
    membersSeen (member :: members) =
      membersSeen [member] ++ membersSeen members := by
  unfold membersSeen
  rw [← List.map_append, ← List.filter_append]
  rfl

theorem Countable.inside {member : Member Value} (countable : Countable member)
    {gap : Blanks} {members : List (Member Value)}
    (value : member.value = .object gap members) :
    ∀ inner ∈ members, Countable inner := by
  obtain ⟨plain, quiet⟩ := countable
  have plain := plain.value
  rw [value] at plain quiet
  intro inner mem
  refine ⟨plain.member mem, ?_⟩
  rw [Value.arrayStrings] at quiet
  clear plain value
  induction members with
  | nil => cases mem
  | cons first members inductionHypothesis =>
      rw [membersArrayStrings, List.append_eq_nil_iff,
        memberArrayStrings_eq] at quiet
      rcases List.mem_cons.mp mem with rfl | later
      · exact quiet.1
      · exact inductionHypothesis quiet.2 later

/-- The keys that are added for a cut text are not more than there are, and as
many only if the members are read as those of the whole text. -/
theorem added_cut {behind : List UInt8 → CharPtr} {depth : Nat}
    {pre : List UInt8} {steps : List Step}
    (countable : ∀ step ∈ steps, Countable step.member) {lead : List UInt8}
    (no_quote : 34 ∉ lead) (ne_zero : 0 ∉ lead) {front : List UInt8}
    (isPrefix : front <+: lead ++ stepsText steps)
    (short : front.length < tempStringMaxlen) {keys : List (List UInt8)}
    (found : addedForAll behind (added behind depth) pre
      (seenFrom (front ++ [0])) = some keys) :
    keys.length ≤ keyCount (steps.map Step.member) ∧
      (keys.length = keyCount (steps.map Step.member) →
        seenFrom (front ++ [0]) = membersSeen (steps.map Step.member)) := by
  induction length : front.length using Nat.strong_induction_on
    generalizing front steps lead keys with
  | _ length' inductionHypothesis =>
      subst length
      have nonzero : 0 ∉ front := fun mem => by
        rcases List.mem_append.mp (isPrefix.mem mem) with inside | inside
        · exact ne_zero inside
        · exact stepsText_ne_zero steps inside
      have nothing : seenFrom (front ++ [0]) = [] →
          keys.length ≤ keyCount (steps.map Step.member) ∧
            (keys.length = keyCount (steps.map Step.member) →
              seenFrom (front ++ [0]) =
                membersSeen (steps.map Step.member)) := by
        intro empty
        rw [empty] at found ⊢
        obtain rfl := Option.some.inj found
        exact ⟨Nat.zero_le _, fun same =>
          (membersSeen_of_no_keys same.symm).symm⟩
      cases steps with
      | nil =>
          apply nothing
          rw [stepsText, List.append_nil] at isPrefix
          exact seenFrom_unquoted (fun mem => no_quote (isPrefix.mem mem))
            nonzero []
      | cons step steps =>
          have own := countable step (List.mem_cons_self ..)
          have others := fun other mem =>
            countable other (List.mem_cons_of_mem step mem)
          cases entry : jsonGetNextObject (front ++ [0]) with
          | none => exact nothing (seenFrom_none entry)
          | some entry' =>
              obtain ⟨scan, -⟩ := (jsonGetNextObject_iff nonzero []).mp entry
              have unquoted := unquoted_of_unescaped own.plain.unescaped
              obtain ⟨key, type, isValue⟩ :=
                scan.of_prefix no_quote unquoted isPrefix
              have rest_nonzero : 0 ∉ scan.value.rest := fun mem =>
                nonzero ((scan.value.rest_suffix.trans
                  scan.fromColon_suffix).mem (List.mem_cons_of_mem _ mem))
              have delimits : ∃ first others, step.behind.bytes ++
                  stepsText steps = first :: others ∧ Delimits first := by
                obtain ⟨first, others, bytes, delimits⟩ :=
                  step.behind.delimits
                exact ⟨first, others ++ stepsText steps, by rw [bytes]; rfl,
                  delimits⟩
              rw [List.map_cons, keyCount_cons, membersSeen_cons]
              rcases value_cut own.plain.value own.quiet rest_nonzero delimits
                isValue with read | cut
              · -- the member stands in front of the cut
                obtain ⟨left, isLeft, shorter, seen, kept⟩ :=
                  seenFrom_readWhole nonzero scan own.plain key type isValue
                    read
                rw [seen, addedForAll_append] at found
                obtain ⟨first, rest, ownFound, restFound, rfl⟩ := found
                have exact_keys : first =
                    keptPaths _ (membersPaths [step.member]) :=
                  added_members_of_some (by simpa using own.plain)
                  (fun other mem => List.mem_singleton.mp mem ▸ kept short)
                  ownFound
                have first_length : first.length = keyCount [step.member] := by
                  rw [exact_keys, keptPaths, List.length_map, keyCount]
                rw [← List.append_assoc] at isLeft
                obtain ⟨fewer, same⟩ := inductionHypothesis left.length shorter
                  others step.leftOver_no_quote step.leftOver_ne_zero isLeft
                  (Nat.lt_trans shorter short) restFound rfl
                rw [List.length_append, first_length]
                refine ⟨Nat.add_le_add_left fewer _, fun all => ?_⟩
                rw [seen, same (Nat.add_left_cancel all)]
              · rcases seenFrom_cutOff nonzero scan type cut with
                  empty | ⟨gap, members, left, object, isLeft, shorter, seen⟩
                · have result := nothing empty
                  rwa [List.map_cons, keyCount_cons, membersSeen_cons]
                    at result
                · -- the loop goes on in the object that is cut
                  have nothing_behind : (34 : UInt8) ∉ ([] : List UInt8) :=
                    List.not_mem_nil
                  have zero_behind : (0 : UInt8) ∉ ([] : List UInt8) :=
                    List.not_mem_nil
                  have same := objectSteps_member [] nothing_behind zero_behind
                    members
                  have inner : ∀ other ∈ objectSteps [] nothing_behind
                      zero_behind members, Countable other.member :=
                    fun other mem => own.inside object _
                      (same ▸ List.mem_map_of_mem mem)
                  rw [object, ← List.append_nil (Value.text _),
                    object_text [] nothing_behind zero_behind] at isLeft
                  rw [seen] at found
                  obtain ⟨fewer, -⟩ := inductionHypothesis left.length shorter
                    inner (objectLead_no_quote nothing_behind gap members)
                    (objectLead_ne_zero zero_behind gap members) isLeft
                    (Nat.lt_trans shorter short) found rfl
                  rw [same] at fewer
                  have more := keyCount_object object
                  exact ⟨by omega, fun all => by omega⟩

end Json
end UIoT
