import UIoT.Json.KeysCut

/-!
# When the keys of a document are listed

`LITE_json_keys_of` lists the paths to the members of a plain document if every
path fits into the buffer of `LITE_format_string` and every object at the top is
read from what is kept of it as from the whole.  Only where strings stand in the
arrays of a longer object can it list them by chance otherwise.
-/

namespace UIoT
namespace Json

open JsonSyntax

/-! ## Behind a kept text -/

/-- What is read of a member does not depend on what lies behind the text. -/
theorem MemberScan.seen_placed {text : List UInt8} (nonzero : 0 ∉ text)
    (scan : MemberScan text) (behind : CharPtr) :
    (if (scan.entry behind).reported then [(scan.entry behind).seenKey]
      else []) =
      if (scan.entry []).reported then [(scan.entry []).seenKey] else [] := by
  have inside : scan.value.valueText <:+ text :=
    scan.value.valueText_suffix.trans
      (scan.value.rest_suffix.trans scan.fromColon_suffix)
  have val_nonzero : 0 ∉ scan.value.valueText := fun mem =>
    nonzero (inside.mem mem)
  have key_nonzero : 0 ∉ scan.key := fun mem =>
    nonzero (scan.text_eq ▸ by simp [mem])
  have key : ∀ behind, sliceText (scan.entry behind).key scan.key.length =
      scan.key := by
    intro behind
    change sliceText (scan.key ++ 34 :: (scan.between ++ 58 ::
      scan.fromColon) ++ 0 :: behind) scan.key.length = scan.key
    rw [List.append_assoc]
    exact sliceText_eq key_nonzero _
  have val : ∀ behind, sliceText (scan.entry behind).val scan.value.len =
      scan.value.valueText.take scan.value.len := fun behind =>
    sliceText_terminated val_nonzero behind _
  have same : (scan.entry behind).seenKey = (scan.entry []).seenKey := by
    change (sliceText (scan.entry behind).key scan.key.length,
        if openedType scan.value.byte = .object then
          some (sliceText (scan.entry behind).val scan.value.len) else none) =
      (sliceText (scan.entry []).key scan.key.length,
        if openedType scan.value.byte = .object then
          some (sliceText (scan.entry []).val scan.value.len) else none)
    rw [key, key, val, val]
  rw [same]
  rfl

/-- What is read of an entry is not longer than the text. -/
theorem MemberScan.seen_length {text : List UInt8} (nonzero : 0 ∉ text)
    (scan : MemberScan text) {name inner : List UInt8}
    (same : (name, some inner) = (scan.entry []).seenKey) :
    inner.length ≤ text.length := by
  have inside : scan.value.valueText <:+ text :=
    scan.value.valueText_suffix.trans
      (scan.value.rest_suffix.trans scan.fromColon_suffix)
  have same := congrArg Prod.snd same
  rw [Entry.seenKey] at same
  dsimp only at same
  split at same
  · have slice : inner = scan.value.valueText.take scan.value.len := by
      rw [Option.some.inj same]
      exact sliceText_terminated (fun mem => nonzero (inside.mem mem)) [] _
    rw [slice, List.length_take]
    exact Nat.le_trans (Nat.min_le_right _ _) inside.length_le
  · cases same

/-- Of a text nothing is read, or something of it and then what lies behind it
or what is left of it. -/
theorem seenFrom_cases {text : List UInt8} (nonzero : 0 ∉ text) :
    (∀ behind, seenFrom (text ++ 0 :: behind) = []) ∨
      ∃ own : List SeenKey,
        (∀ name inner, (name, some inner) ∈ own →
          inner.length ≤ text.length) ∧
        ((∀ behind, seenFrom (text ++ 0 :: behind) =
            own ++ seenFrom behind) ∨
          ∃ left, left <:+ text ∧ left.length < text.length ∧
            ∀ behind, seenFrom (text ++ 0 :: behind) =
              own ++ seenFrom (left ++ 0 :: behind)) := by
  cases found : jsonGetNextObject (text ++ [0]) with
  | none =>
      left
      intro behind
      apply seenFrom_none
      by_contra answers
      obtain ⟨entry, answer⟩ := Option.ne_none_iff_exists'.mp answers
      obtain ⟨scan, -⟩ := (jsonGetNextObject_iff nonzero behind).mp answer
      rw [(jsonGetNextObject_iff nonzero []).mpr ⟨scan, rfl⟩] at found
      cases found
  | some entry =>
      obtain ⟨scan, rfl⟩ := (jsonGetNextObject_iff nonzero []).mp found
      have read : ∀ behind, seenFrom (text ++ 0 :: behind) =
          (if (scan.entry []).reported then [(scan.entry []).seenKey]
            else []) ++ seenFrom (scan.entry behind).next := by
        intro behind
        rw [seenFrom_eq
          ((jsonGetNextObject_iff nonzero behind).mpr ⟨scan, rfl⟩),
          scan.seen_placed nonzero]
      refine .inr ⟨if (scan.entry []).reported then
        [(scan.entry []).seenKey] else [], ?_, ?_⟩
      · intro name inner mem
        split at mem
        · exact scan.seen_length nonzero (List.mem_singleton.mp mem)
        · cases mem
      by_cases hangs : scan.value.Hangs
      · left
        intro behind
        have next : (scan.entry behind).next = behind :=
          scan.value.element_next_hangs hangs behind
        rw [read, next]
      · right
        have next : ∀ behind, (scan.entry behind).next =
            scan.value.valueText.drop scan.value.advance ++ 0 :: behind :=
          scan.value.element_next hangs
        have shorter := jsonGetNextObject_length found
        rw [next, List.length_append, List.length_append] at shorter
        refine ⟨_, (List.drop_suffix scan.value.advance _).trans
          (scan.value.valueText_suffix.trans
            (scan.value.rest_suffix.trans scan.fromColon_suffix)),
          Nat.lt_of_add_lt_add_right shorter, fun behind => ?_⟩
        rw [read, next]

/-- Behind the terminator nothing is read, or everything that lies there. -/
theorem seenFrom_behind {text : List UInt8} (nonzero : 0 ∉ text) :
    (∀ behind, seenFrom (text ++ 0 :: behind) = seenFrom (text ++ [0])) ∨
      ∀ behind, seenFrom (text ++ 0 :: behind) =
        seenFrom (text ++ [0]) ++ seenFrom behind := by
  induction length : text.length using Nat.strong_induction_on
    generalizing text with
  | _ length' inductionHypothesis =>
      subst length
      rcases seenFrom_cases nonzero with
        nothing | ⟨own, -, hangs | ⟨left, isSuffix, shorter, read⟩⟩
      · exact .inl fun behind => by rw [nothing, nothing]
      · right
        intro behind
        have alone : seenFrom [] = [] := rfl
        rw [hangs, hangs, alone, List.append_nil]
      · rcases inductionHypothesis left.length shorter
          (fun mem => nonzero (isSuffix.mem mem)) rfl with stays | goesOn
        · exact .inl fun behind => by rw [read, read, stays]
        · exact .inr fun behind => by
            rw [read, read, goesOn, List.append_assoc]

/-- An object that is read of a text is not longer than the text. -/
theorem seenFrom_length {text : List UInt8} (nonzero : 0 ∉ text)
    {name inner : List UInt8}
    (mem : (name, some inner) ∈ seenFrom (text ++ [0])) :
    inner.length ≤ text.length := by
  induction length : text.length using Nat.strong_induction_on
    generalizing text with
  | _ length' inductionHypothesis =>
      subst length
      rcases seenFrom_cases nonzero with
        nothing | ⟨own, bound, hangs | ⟨left, isSuffix, shorter, read⟩⟩
      · rw [nothing] at mem
        cases mem
      · have alone : seenFrom [] = [] := rfl
        rw [hangs, alone, List.append_nil] at mem
        exact bound name inner mem
      · rw [read, List.mem_append] at mem
        rcases mem with first | later
        · exact bound name inner first
        · have le := inductionHypothesis left.length shorter
            (fun mem => nonzero (isSuffix.mem mem)) later rfl
          exact Nat.le_trans le isSuffix.length_le

/-! ## Documents -/

/-- From what is kept of the value the same is read as from the whole, whatever
lies behind it. -/
def SeenWhole (value : Value) : Prop :=
  ∀ behind, keysSeen (kept value.text ++ 0 :: behind) =
    keysSeen (value.text ++ [0])

/-- The call lists the paths of the document, and an entry without a key. -/
def ListsPaths (document : ObjectDocument) : Prop :=
  ∀ (behind : List UInt8 → CharPtr) (rest : CharPtr) (keylist : KeyList),
    ∃ depth, liteJsonKeysOf behind depth
        (some (document.text ++ 0 :: rest)) (some []) keylist =
      some (document.value.paths.map (fun path => some (dotted path)) ++
        [none])

/-- Only spaces stand in front of the object, every path fits into the buffer,
and nothing is lost of the objects in it. -/
structure KeysKept (document : ObjectDocument) : Prop where
  spaces : document.value.paths = [] ∨
    ∀ byte ∈ document.before.bytes, byte = 32
  short : ∀ path ∈ document.value.paths,
    (dotted path).length < tempStringMaxlen
  seen : ∀ member ∈ document.members, ∀ gap others,
    member.value = .object gap others → SeenWhole member.value

/-- No string stands in an array of an object that is not kept in whole. -/
def QuietArrays (document : ObjectDocument) : Prop :=
  ∀ member ∈ document.members,
    Short member ∨ member.value.arrayStrings = []

/-- What the loop reads of a document. -/
theorem keysSeen_document {document : ObjectDocument}
    (plain : ∀ member ∈ document.members, PlainMember member)
    (spaces : ∀ byte ∈ document.before.bytes, byte = 32) (rest : CharPtr) :
    keysSeen (document.text ++ 0 :: rest) = membersSeen document.members := by
  have no_quote := Blanks.no_quote document.after
  have ne_zero := Blanks.ne_zero document.after
  have text_eq := object_text document.after.bytes no_quote ne_zero
    document.gap document.members
  have same : (documentSteps document).map Step.member = document.members :=
    objectSteps_member _ _ _ _
  have read := seenFrom_steps (documentSteps document)
    (objectLead_no_quote no_quote document.gap document.members)
    (objectLead_ne_zero ne_zero document.gap document.members)
    (fun step mem => plain _ (same ▸ List.mem_map_of_mem mem)) rest
  rw [same, documentSteps, ← List.append_assoc, ← text_eq] at read
  rw [keysSeen, jsonObjectForEachKv, ObjectDocument.text, ObjectDocument.value,
    List.append_assoc, List.append_assoc, jsonGetObject_spaces spaces,
    jsonGetObject_object, ← List.append_assoc]
  exact read

/-- Other blanks than spaces hide the document. -/
theorem keysSeen_hidden {document : ObjectDocument}
    (other : ¬∀ byte ∈ document.before.bytes, byte = 32) (rest : CharPtr) :
    keysSeen (document.text ++ 0 :: rest) = [] := by
  rw [keysSeen, jsonObjectForEachKv, ObjectDocument.text, List.append_assoc,
    List.append_assoc, jsonGetObject_blanks document.before.blank other]
  rfl

/-- What the loop reads of what is kept of an object. -/
theorem keysSeen_kept {value : Value} {gap : Blanks}
    {members : List (Member Value)} (object : value = .object gap members)
    (behind : CharPtr) :
    keysSeen (kept value.text ++ 0 :: behind) =
      seenFrom (kept value.text ++ 0 :: behind) := by
  have begins : ∃ text, kept value.text = 123 :: text := by
    rw [object, Value.text]
    exact ⟨_, rfl⟩
  obtain ⟨text, begins⟩ := begins
  rw [begins]
  rfl

theorem kept_ne_zero (value : Value) : 0 ∉ kept value.text :=
  fun mem => value.ne_zero (List.mem_of_mem_take mem)

/-- The objects that are read of what is kept of an object are short. -/
theorem short_of_seen {value : Value} {members : List (Member Value)}
    (seen : seenFrom (kept value.text ++ [0]) = membersSeen members) :
    ∀ member ∈ members, Short member := by
  intro member mem gap others object
  have nonempty : member.value.content ≠ [] := by
    simp [object, Value.content, Value.text]
  have read : memberSeen member ∈ membersSeen members := by
    apply List.mem_map_of_mem
    rw [List.mem_filter]
    exact ⟨mem, by simpa using nonempty⟩
  have pair : memberSeen member =
      (rawText member.key, some member.value.text) := by
    rw [memberSeen, object]
  rw [← seen, pair] at read
  exact Nat.lt_of_le_of_lt (seenFrom_length (kept_ne_zero value) read)
    (length_kept _)

/-! ## The paths are listed -/

/-- Nothing in the document is lost, so all of its paths are listed. -/
theorem KeysKept.lists {document : ObjectDocument}
    (plain : Plain document.value) (keysKept : KeysKept document) :
    ListsPaths document := by
  intro behind rest keylist
  have each : ∀ member ∈ document.members, PlainMember member :=
    fun member mem => plain.member mem
  have paths : document.value.paths = membersPaths document.members := by
    rw [ObjectDocument.value, Value.paths]
  let depth := document.value.text.length
  have all : added behind (depth + 2) (document.text ++ 0 :: rest) [] =
      some (keptPaths [] document.value.paths) := by
    rw [added]
    by_cases spaces : ∀ byte ∈ document.before.bytes, byte = 32
    · rw [keysSeen_document each spaces, paths]
      apply added_members each
      intro member mem gap others object pre
      have inner : ∀ other ∈ others, PlainMember other := fun other mem' => by
        have own := (each member mem).value
        rw [object] at own
        exact own.member mem'
      have whole : keysSeen (kept member.value.text ++
          0 :: behind (kept member.value.text)) = membersSeen others := by
        rw [keysKept.seen member mem gap others object, object]
        exact keysSeen_object _ inner []
      have alone := keysKept.seen member mem gap others object []
      rw [keysSeen_kept object, object, keysSeen_object _ inner, ← object]
        at alone
      have outer := member_length document.gap mem
      rw [added, whole, object, Value.paths]
      apply added_members inner
      intro other mem' gap' others' object' pre
      have shorter := member_length gap mem'
      have short := short_of_seen alone other mem' gap' others' object'
      rw [← object] at shorter
      rw [kept_of_le short]
      exact added_object behind (inner other mem').value object' short
        (Nat.le_of_lt (Nat.lt_trans shorter outer)) _ pre
    · rw [keysSeen_hidden spaces, keysKept.spaces.resolve_right spaces]
      rfl
  have fits : keptPaths [] document.value.paths =
      document.value.paths.map dotted := by
    unfold keptPaths
    apply List.map_congr_left
    intro path mem
    rw [List.nil_append, kept_of_le (keysKept.short path mem)]
  refine ⟨depth + 2, ?_⟩
  rw [liteJsonKeysOf_outermost, all, fits, Option.map_some, List.map_map]
  rfl

/-! ## What follows when the paths are listed -/

/-- Every key that is added fits into the buffer. -/
theorem addedForAll_short {behind : List UInt8 → CharPtr}
    {adds : CharPtr → List UInt8 → Option (List (List UInt8))}
    (short : ∀ src pre keys, adds src pre = some keys →
      ∀ key ∈ keys, key.length < tempStringMaxlen)
    {pre : List UInt8} {seen : List SeenKey} {keys : List (List UInt8)}
    (found : addedForAll behind adds pre seen = some keys) :
    ∀ key ∈ keys, key.length < tempStringMaxlen := by
  induction seen generalizing keys with
  | nil =>
      obtain rfl := Option.some.inj found
      exact nofun
  | cons first seen inductionHypothesis =>
      rw [addedForAll, Option.bind_eq_some_iff] at found
      obtain ⟨own, first_found, found⟩ := found
      obtain ⟨others, rest_found, rfl⟩ := Option.map_eq_some_iff.mp found
      intro key mem
      rcases List.mem_append.mp mem with mem | mem
      · unfold addedFor at first_found
        split at first_found
        · obtain rfl := Option.some.inj first_found
          rw [List.mem_singleton.mp mem]
          exact length_kept _
        · obtain ⟨inner, deeper, rfl⟩ := Option.map_eq_some_iff.mp first_found
          rcases List.mem_cons.mp mem with rfl | mem
          · exact length_kept _
          · exact short _ _ _ deeper key mem
      · exact inductionHypothesis rest_found key mem

theorem added_short {behind : List UInt8 → CharPtr} {depth : Nat}
    {src : CharPtr} {pre : List UInt8} {keys : List (List UInt8)}
    (found : added behind depth src pre = some keys) :
    ∀ key ∈ keys, key.length < tempStringMaxlen := by
  induction depth generalizing src pre keys with
  | zero => cases found
  | succ depth inductionHypothesis =>
      exact addedForAll_short (fun src pre keys => inductionHypothesis) found

/-- A listed document adds its paths. -/
theorem ListsPaths.added {document : ObjectDocument}
    (lists : ListsPaths document) (behind : List UInt8 → CharPtr) :
    ∃ depth, addedForAll behind (added behind depth) []
        (keysSeen (document.text ++ [0])) =
      some (document.value.paths.map dotted) := by
  obtain ⟨depth, listed⟩ := lists behind [] []
  rw [liteJsonKeysOf_outermost] at listed
  obtain ⟨keys, found, same⟩ := Option.map_eq_some_iff.mp listed
  have keys_eq : keys.map some =
      (document.value.paths.map dotted).map some := by
    rw [List.map_map]
    exact List.append_cancel_right same
  rw [List.map_inj_right fun _ _ => Option.some.inj] at keys_eq
  cases depth with
  | zero => cases found
  | succ depth => exact ⟨depth, by rw [← keys_eq]; exact found⟩

/-- What is added for members one by one compares with how many keys they have
as what is added for all of them. -/
theorem added_members_compare (cmp : Nat → Nat → Prop) (start : cmp 0 0)
    (fair : ∀ {first second first' second'}, cmp first first' →
      cmp second second' → cmp (first + second) (first' + second') ∧
        (first + second = first' + second' →
          first = first' ∧ second = second'))
    {holds : Member Value → Prop}
    {behind : List UInt8 → CharPtr}
    {adds : CharPtr → List UInt8 → Option (List (List UInt8))}
    {pre : List UInt8} {members : List (Member Value)}
    (each : ∀ member ∈ members, ∀ own,
      addedForAll behind adds pre (membersSeen [member]) = some own →
        cmp own.length (keyCount [member]) ∧
          (own.length = keyCount [member] → holds member))
    {keys : List (List UInt8)}
    (found : addedForAll behind adds pre (membersSeen members) = some keys) :
    cmp keys.length (keyCount members) ∧
      (keys.length = keyCount members → ∀ member ∈ members, holds member) := by
  induction members generalizing keys with
  | nil =>
      obtain rfl := Option.some.inj found
      exact ⟨start, fun _ => nofun⟩
  | cons member members inductionHypothesis =>
      rw [membersSeen_cons, addedForAll_append] at found
      obtain ⟨own, others, ownFound, othersFound, rfl⟩ := found
      obtain ⟨first, holdsFirst⟩ :=
        each member (List.mem_cons_self ..) own ownFound
      obtain ⟨rest, holdsRest⟩ := inductionHypothesis
        (fun other mem => each other (List.mem_cons_of_mem _ mem)) othersFound
      obtain ⟨both, split⟩ := fair first rest
      rw [keyCount_cons, List.length_append]
      refine ⟨both, fun same => ?_⟩
      obtain ⟨sameFirst, sameRest⟩ := split same
      exact List.forall_mem_cons.mpr ⟨holdsFirst sameFirst, holdsRest sameRest⟩

/-- What is added for a member: its path, and for an object what is added for
what is kept of it. -/
theorem added_member_cases {behind : List UInt8 → CharPtr} {depth : Nat}
    {pre : List UInt8} {member : Member Value} {own : List (List UInt8)}
    (found : addedForAll behind (added behind depth) pre
      (membersSeen [member]) = some own) :
    (own.length = keyCount [member] ∧
      ∀ gap others, member.value ≠ .object gap others) ∨
    ∃ gap others deeper pre' keys, member.value = .object gap others ∧
      addedForAll behind (added behind deeper) pre'
        (seenFrom (kept member.value.text ++
          0 :: behind (kept member.value.text))) = some keys ∧
      own.length = keys.length + 1 ∧
      keyCount [member] = keyCount others + 1 := by
  by_cases empty : member.value.content = []
  · have nothing : membersSeen [member] = [] := by
      simp [membersSeen, empty]
    rw [nothing] at found
    obtain rfl := Option.some.inj found
    refine .inl ⟨by simp [keyCount, membersPaths, memberPaths_eq, empty], ?_⟩
    intro gap others object
    rw [object] at empty
    simp [Value.content, Value.text] at empty
  have seen : membersSeen [member] = [memberSeen member] := by
    simp [membersSeen, empty]
  rw [seen, addedForAll, addedForAll, Option.bind_eq_some_iff] at found
  obtain ⟨keys', one, same⟩ := found
  have same : own = keys' := by simpa using same.symm
  subst same
  have count : keyCount [member] = member.value.paths.length + 1 := by
    simp [keyCount, membersPaths, memberPaths_eq, empty]
  cases object : member.value with
  | object gap others =>
      right
      rw [addedFor, memberSeen, object] at one
      dsimp only at one
      obtain ⟨keys, deeper, rfl⟩ := Option.map_eq_some_iff.mp one
      cases depth with
      | zero => cases deeper
      | succ depth =>
          rw [added, keysSeen_kept rfl] at deeper
          exact ⟨gap, others, depth, _, keys, rfl, deeper, List.length_cons,
            keyCount_object object⟩
  | _ =>
      rw [addedFor, memberSeen, object] at one
      obtain rfl := Option.some.inj one
      left
      refine ⟨?_, fun _ _ other => ?_⟩
      · rw [count, object]
        rfl
      · cases other

/-- What is read of what is kept of the member's object are its members. -/
def SeenAlone (member : Member Value) : Prop :=
  ∀ gap others, member.value = .object gap others →
    seenFrom (kept member.value.text ++ [0]) = membersSeen others

theorem PlainMember.inside {member : Member Value} (plain : PlainMember member)
    {gap : Blanks} {others : List (Member Value)}
    (object : member.value = .object gap others) :
    ∀ other ∈ others, PlainMember other := by
  have value := plain.value
  rw [object] at value
  exact fun other mem => value.member mem

/-- Where nothing lies behind, not more keys are added than there are. -/
theorem added_member_le {depth : Nat} {pre : List UInt8} {member : Member Value}
    (plain : PlainMember member)
    (quiet : Short member ∨ member.value.arrayStrings = [])
    {own : List (List UInt8)}
    (found : addedForAll (fun _ => []) (added (fun _ => []) depth) pre
      (membersSeen [member]) = some own) :
    own.length ≤ keyCount [member] ∧
      (own.length = keyCount [member] → SeenAlone member) := by
  rcases added_member_cases found with
    ⟨same, noObject⟩ | ⟨gap, others, deeper, pre', keys, object, added, length,
      count⟩
  · exact ⟨Nat.le_of_eq same, fun _ gap others object =>
      absurd object (noObject gap others)⟩
  have inner := plain.inside object
  have one : ∀ gap' others', member.value = .object gap' others' →
      others' = others := by
    intro gap' others' object'
    exact (Value.object.inj (object'.symm.trans object)).2
  rcases quiet with short | quiet
  · have whole : seenFrom (kept member.value.text ++ [0]) =
        membersSeen others := by
      have read := keysSeen_object gap inner []
      rw [← object] at read
      rw [← keysSeen_kept object, kept_of_le (short gap others object)]
      exact read
    have exact_keys := added_members_of_some inner
      (short_of_seen whole) (whole ▸ added)
    have keys_length : keys.length = keyCount others := by
      rw [exact_keys, keptPaths, List.length_map, keyCount]
    refine ⟨by omega, fun _ gap' others' object' => ?_⟩
    rw [one gap' others' object']
    exact whole
  · have nothing_behind : (34 : UInt8) ∉ ([] : List UInt8) := List.not_mem_nil
    have zero_behind : (0 : UInt8) ∉ ([] : List UInt8) := List.not_mem_nil
    have same := objectSteps_member [] nothing_behind zero_behind others
    have countable : ∀ step ∈ objectSteps [] nothing_behind zero_behind others,
        Countable step.member := fun step mem =>
      Countable.inside ⟨plain, quiet⟩ object _
        (same ▸ List.mem_map_of_mem mem)
    have isPrefix : kept member.value.text <+: objectLead [] gap others ++
        stepsText (objectSteps [] nothing_behind zero_behind others) := by
      rw [← object_text, List.append_nil, ← object]
      exact List.take_prefix ..
    obtain ⟨fewer, seen⟩ := added_cut countable
      (objectLead_no_quote nothing_behind gap others)
      (objectLead_ne_zero zero_behind gap others) isPrefix
      (length_kept _) added
    rw [same] at fewer seen
    refine ⟨by omega, fun all gap' others' object' => ?_⟩
    rw [one gap' others' object']
    exact seen (by omega)

/-- A member that may lie behind a string: `"a":"b"`. -/
def strayText : List UInt8 := [34, 97, 34, 58, 34, 98, 34]

/-- Where a member lies behind, a key is added for it if the loop comes to
it. -/
theorem added_member_ge {depth : Nat} {pre : List UInt8} {member : Member Value}
    (plain : PlainMember member) (alone : SeenAlone member)
    {own : List (List UInt8)}
    (found : addedForAll (fun _ => strayText)
      (added (fun _ => strayText) depth) pre
      (membersSeen [member]) = some own) :
    keyCount [member] ≤ own.length ∧
      (own.length = keyCount [member] → ∀ gap others,
        member.value = .object gap others → SeenWhole member.value) := by
  rcases added_member_cases found with
    ⟨same, noObject⟩ | ⟨gap, others, deeper, pre', keys, object, added, length,
      count⟩
  · exact ⟨Nat.le_of_eq same.symm, fun _ gap others object =>
      absurd object (noObject gap others)⟩
  have inner := plain.inside object
  have seen := alone gap others object
  have exact_count : ∀ {keys}, addedForAll (fun _ => strayText)
      (UIoT.Json.added (fun _ => strayText) deeper) pre'
        (membersSeen others) = some keys → keys.length = keyCount others := by
    intro keys found
    rw [added_members_of_some inner (short_of_seen seen) found, keptPaths,
      List.length_map, keyCount]
  rcases seenFrom_behind (kept_ne_zero member.value) with stays | goesOn
  · rw [stays, seen] at added
    have same := exact_count added
    refine ⟨by omega, fun _ gap' others' object' behind => ?_⟩
    have read := keysSeen_object gap inner []
    rw [keysSeen_kept object', stays, seen, object]
    exact read.symm
  · rw [goesOn, seen, addedForAll_append] at added
    obtain ⟨first, second, firstFound, secondFound, rfl⟩ := added
    have same := exact_count firstFound
    have stray : seenFrom strayText = [([97], none)] := by decide
    rw [stray] at secondFound
    have one : second.length = 1 := by
      rw [← Option.some.inj secondFound]
      rfl
    rw [List.length_append, one] at length
    exact ⟨by omega, fun all => by omega⟩

/-- Where the paths are listed nothing was lost, if no string stands in an array
of a longer object. -/
theorem ListsPaths.kept {document : ObjectDocument}
    (plain : Plain document.value) (quiet : QuietArrays document)
    (lists : ListsPaths document) : KeysKept document := by
  have each : ∀ member ∈ document.members, PlainMember member :=
    fun member mem => plain.member mem
  have paths : document.value.paths = membersPaths document.members := by
    rw [ObjectDocument.value, Value.paths]
  have short : ∀ path ∈ document.value.paths,
      (dotted path).length < tempStringMaxlen := by
    intro path mem
    obtain ⟨depth, found⟩ := lists.added fun _ => []
    exact addedForAll_short (fun _ _ _ => added_short) found _
      (List.mem_map_of_mem mem)
  by_cases spaces : ∀ byte ∈ document.before.bytes, byte = 32
  · refine ⟨.inr spaces, short, ?_⟩
    have listed : ∀ behind, ∃ depth keys,
        addedForAll behind (UIoT.Json.added behind depth) []
          (membersSeen document.members) = some keys ∧
        keys.length = keyCount document.members := by
      intro behind
      obtain ⟨depth, found⟩ := lists.added behind
      rw [keysSeen_document each spaces] at found
      exact ⟨depth, _, found, by rw [List.length_map, paths, keyCount]⟩
    obtain ⟨depth, keys, found, count⟩ := listed fun _ => []
    have alone := (added_members_compare (· ≤ ·) (Nat.le_refl 0)
      (fun first second => ⟨by omega, by omega⟩)
      (fun member mem own =>
        added_member_le (each member mem) (quiet member mem)) found).2 count
    obtain ⟨depth, keys, found, count⟩ := listed fun _ => strayText
    exact (added_members_compare (· ≥ ·) (Nat.le_refl 0)
      (fun first second => ⟨by omega, by omega⟩)
      (fun member mem own =>
        added_member_ge (each member mem) (alone member mem)) found).2 count
  · have nothing : document.value.paths = [] := by
      obtain ⟨depth, found⟩ := lists.added fun _ => []
      rw [keysSeen_hidden spaces] at found
      exact List.map_eq_nil_iff.mp (Option.some.inj found).symm
    refine ⟨.inl nothing, short, ?_⟩
    intro member mem gap others object
    have some_key := keyCount_object object
    have fewer : keyCount [member] ≤ keyCount document.members := by
      obtain ⟨front, back, split⟩ := List.append_of_mem mem
      rw [split]
      simp only [keyCount, membersPaths_eq, List.flatMap_append,
        List.flatMap_cons, List.flatMap_nil, List.length_append,
        List.length_nil]
      omega
    have zero : keyCount document.members = 0 := by
      rw [keyCount, ← paths, nothing, List.length_nil]
    omega

/-- `LITE_json_keys_of` lists the paths of a plain document where nothing is
lost, and only there if no string stands in an array of an object at the top
that is not kept in whole. -/
theorem liteJsonKeysOf_lists {document : ObjectDocument}
    (plain : Plain document.value) :
    (KeysKept document → ListsPaths document) ∧
      (QuietArrays document → ListsPaths document → KeysKept document) :=
  ⟨KeysKept.lists plain, ListsPaths.kept plain⟩

/-- Nothing is lost of an object that fits into the buffer. -/
theorem seenWhole_of_short {member : Member Value} (plain : PlainMember member)
    (short : Short member) {gap : Blanks} {others : List (Member Value)}
    (object : member.value = .object gap others) :
    SeenWhole member.value := by
  intro behind
  have inner := plain.inside object
  rw [kept_of_le (short gap others object), object, keysSeen_object _ inner,
    keysSeen_object _ inner]

/-- The document `{"a":{"b":7}}`. -/
def shortObject : ObjectDocument :=
  tightDocument [tightMember [letter 0]
    (.object .none [tightMember [letter 1] (digit 7)])]

theorem shortObject_lists :
    Plain shortObject.value ∧ KeysKept shortObject ∧
      ListsPaths shortObject := by
  have plain : Plain shortObject.value := ⟨by decide, by decide, by decide⟩
  have keysKept : KeysKept shortObject := by
    refine ⟨.inr (by decide), by decide, ?_⟩
    intro member mem gap others object
    refine seenWhole_of_short (plain.member mem) ?_ object
    obtain rfl := List.mem_singleton.mp mem
    exact fun _ _ _ => by decide
  exact ⟨plain, keysKept, (liteJsonKeysOf_lists plain).1 keysKept⟩

/-- The document `{"a":{"b":"x"}}` with 600 bytes `x`. -/
def longObject : ObjectDocument :=
  tightDocument [tightMember [letter 0]
    (.object .none [tightMember [letter 1]
      (.string (List.replicate 600 (letter 23)))])]

/-- The string has no end in what is kept of the object, and its key is lost. -/
theorem longObject_cutOff :
    Plain longObject.value ∧
      longObject.value.paths.map dotted = [[97], [97, 46, 98]] ∧
      liteJsonKeysOf (fun _ => []) 2 (some (longObject.text ++ [0])) (some [])
        [] = some [some [97], none] ∧
      ¬ListsPaths longObject := by
  have plain : Plain longObject.value :=
    ⟨by decide +kernel, by decide +kernel, by decide +kernel⟩
  refine ⟨plain, by decide +kernel, by decide +kernel, fun lists => ?_⟩
  have quiet : QuietArrays longObject := by
    intro member mem
    obtain rfl := List.mem_singleton.mp mem
    exact .inr rfl
  have keysKept := lists.kept plain quiet
  have same := keysKept.seen _ (List.mem_cons_self ..) _ _ rfl []
  revert same
  decide +kernel

end Json
end UIoT
