import UIoT.Json.FirstMember
import UIoT.Json.KeysOf

/-!
# The keys of a whole object

For an object that is kept in whole, `LITE_json_keys_of` adds the paths of names
to its members, each as far as it is kept.
-/

namespace UIoT
namespace Json

open JsonSyntax

/-! ## Plain documents -/

/-- No string contains an escape or a mark, and keys are neither empty nor
dotted. -/
structure Plain (value : Value) : Prop where
  unescaped : ∀ items ∈ value.strings, 92 ∉ rawText items
  unmarked : ∀ items ∈ value.strings, ∀ byte ∈ rawText items, NoMark byte
  named : ∀ key ∈ value.keys, rawText key ≠ [] ∧ 46 ∉ rawText key

/-- A string without escapes contains no quote. -/
theorem unquoted_of_unescaped {items : List StringItem}
    (unescaped : 92 ∉ rawText items) : 34 ∉ rawText items := by
  intro mem
  obtain ⟨item, found, quote⟩ := List.mem_flatMap.mp mem
  have free : 92 ∉ item.bytes := fun escape =>
    unescaped (List.mem_flatMap.mpr ⟨item, found, escape⟩)
  cases item with
  | plain byte allowed =>
      exact allowed.2.1 (List.mem_singleton.mp quote).symm
  | escape code => exact free (List.mem_cons_self ..)
  | unicode a b c d => exact free (List.mem_cons_self ..)

theorem Plain.passed {value : Value} (plain : Plain value) : Passed value := by
  have unmarked : ∀ opening closing, Marks opening closing →
      Unmarked opening closing value.strings := by
    intro opening closing marks items mem
    have clean := plain.unmarked items mem
    rcases marks with ⟨rfl, rfl⟩ | ⟨rfl, rfl⟩
    · exact ⟨fun mem => (clean _ mem).1 rfl, fun mem => (clean _ mem).2.1 rfl⟩
    · exact ⟨fun mem => (clean _ mem).2.2.1 rfl,
        fun mem => (clean _ mem).2.2.2 rfl⟩
  cases value with
  | string items =>
      exact unquoted_of_unescaped (plain.unescaped items (by
        simp [Value.strings]))
  | number number => trivial
  | literal literal => trivial
  | array gap elements =>
      have marks : Marks 91 93 := .inl ⟨rfl, rfl⟩
      rw [Passed, Value.text]
      exact ((closed_blanks marks gap).append (closed_elements marks elements
        (by simpa [Value.strings] using unmarked _ _ marks))).enclosed
          (by decide)
  | object gap members =>
      have marks : Marks 123 125 := .inr ⟨rfl, rfl⟩
      rw [Passed, Value.text]
      exact ((closed_blanks marks gap).append (closed_members marks members
        (by simpa [Value.strings] using unmarked _ _ marks))).enclosed
          (by decide)

/-- A member with a plain key and a plain value. -/
structure PlainMember (member : Member Value) : Prop where
  unescaped : 92 ∉ rawText member.key
  nonempty : rawText member.key ≠ []
  value : Plain member.value

theorem membersStrings_eq (members : List (Member Value)) :
    membersStrings members = members.flatMap memberStrings := by
  induction members with
  | nil => rfl
  | cons member rest inductionHypothesis =>
      rw [membersStrings, inductionHypothesis, List.flatMap_cons]

theorem membersKeys_eq (members : List (Member Value)) :
    membersKeys members = members.flatMap memberKeys := by
  induction members with
  | nil => rfl
  | cons member rest inductionHypothesis =>
      rw [membersKeys, inductionHypothesis, List.flatMap_cons]

theorem Plain.member {gap : Blanks} {members : List (Member Value)}
    (plain : Plain (.object gap members)) {member : Member Value}
    (mem : member ∈ members) : PlainMember member := by
  have strings : ∀ items ∈ memberStrings member,
      items ∈ (Value.object gap members).strings := fun items inside => by
    rw [Value.strings, membersStrings_eq]
    exact List.mem_flatMap.mpr ⟨member, mem, inside⟩
  have keys : ∀ key ∈ memberKeys member,
      key ∈ (Value.object gap members).keys := fun key inside => by
    rw [Value.keys, membersKeys_eq]
    exact List.mem_flatMap.mpr ⟨member, mem, inside⟩
  rw [memberStrings_eq] at strings
  rw [memberKeys_eq] at keys
  exact {
    unescaped := plain.unescaped _ (strings _ (List.mem_cons_self ..))
    nonempty := (plain.named _ (keys _ (List.mem_cons_self ..))).1
    value := {
      unescaped := fun items inside => plain.unescaped items
        (strings items (List.mem_cons_of_mem _ inside))
      unmarked := fun items inside => plain.unmarked items
        (strings items (List.mem_cons_of_mem _ inside))
      named := fun key inside => plain.named key
        (keys key (List.mem_cons_of_mem _ inside)) } }

/-! ## What the loop reads of a whole object -/

/-- What the loop reads from a position on. -/
def seenFrom (pos : CharPtr) : List SeenKey :=
  seenKeys (entriesFrom pos.length pos)

theorem jsonGetNextObject_of_deref {pos : CharPtr} (ends : deref pos = 0) :
    jsonGetNextObject pos = none := by
  cases pos with
  | nil => rfl
  | cons byte pos =>
      obtain rfl : byte = 0 := ends
      rfl

/-- The loop goes on behind the entry it finds first. -/
theorem seenFrom_eq {pos : CharPtr} {entry : Entry}
    (found : jsonGetNextObject pos = some entry) :
    seenFrom pos =
      (if entry.reported then [entry.seenKey] else []) ++
        seenFrom entry.next := by
  have visible : deref pos ≠ 0 := fun ends => by
    rw [jsonGetNextObject_of_deref ends] at found
    cases found
  have shorter := jsonGetNextObject_length found
  obtain ⟨turns, turns_eq⟩ := Nat.exists_eq_succ_of_ne_zero
    (Nat.ne_of_gt (Nat.zero_lt_of_lt shorter))
  unfold seenFrom
  rw [turns_eq, entriesFrom, if_neg visible, found]
  dsimp only
  rw [entriesFrom_eq (by omega)]
  unfold seenKeys
  rw [List.filter_cons]
  split <;> rfl

/-- The loop ends where it finds nothing. -/
theorem seenFrom_none {pos : CharPtr} (absent : jsonGetNextObject pos = none) :
    seenFrom pos = [] := by
  unfold seenFrom
  cases pos with
  | nil => rfl
  | cons byte pos =>
      rw [List.length_cons, entriesFrom, absent]
      split <;> rfl

theorem seenFrom_unquoted {text : List UInt8} (no_quote : 34 ∉ text)
    (ne_zero : 0 ∉ text) (behind : CharPtr) :
    seenFrom (text ++ 0 :: behind) = [] := by
  apply seenFrom_none
  unfold jsonGetNextObject
  rw [strchr_absent no_quote ne_zero (by decide)]

/-- What there is to read of a member. -/
def memberSeen (member : Member Value) : SeenKey :=
  (rawText member.key,
    match member.value with
    | .object gap members => some (Value.object gap members).text
    | _ => none)

/-- What there is to read of members. -/
def membersSeen (members : List (Member Value)) : List SeenKey :=
  (members.filter fun member => member.value.content ≠ []).map memberSeen

theorem sliceText_eq {text : List UInt8} (nonzero : 0 ∉ text)
    (rest : CharPtr) : sliceText (text ++ rest) text.length = text :=
  copied_eq nonzero rest

/-- An entry with the key, the type and the length of a member is read as the
member. -/
theorem seen_of_entry {entry : Entry} {member : Member Value}
    (key : sliceText entry.key entry.keyLen = rawText member.key)
    (some_key : entry.keyLen ≠ 0) (type : entry.valType = typeOf member.value)
    (length : entry.valLen + (leftOver member.value).length =
      member.value.content.length)
    (slice : ∀ gap others, member.value = .object gap others →
      sliceText entry.val entry.valLen = member.value.text) :
    (if entry.reported then [entry.seenKey] else []) =
      membersSeen [member] := by
  unfold membersSeen Entry.reported Entry.seenKey
  rw [key, type]
  by_cases empty : member.value.content = []
  · have zero : entry.valLen = 0 := by
      rw [empty, List.length_nil] at length
      omega
    simp [empty, zero]
  · have less := leftOver_lt empty
    have some_value : entry.valLen ≠ 0 := by omega
    simp only [some_value, some_key, empty, memberSeen, ne_eq,
      not_false_eq_true, decide_true, Bool.and_self, if_true,
      List.filter_cons_of_pos, List.filter_nil, List.map_cons, List.map_nil,
      List.cons.injEq, Prod.mk.injEq, true_and, and_true]
    cases value : member.value with
    | object gap others =>
        simp only [typeOf, if_true, slice gap others value, value]
    | literal literal => cases literal <;> rfl
    | _ => rfl

/-- What is left of a text is read as the member it begins with. -/
theorem seenFrom_step {lead : List UInt8} (no_quote : 34 ∉ lead)
    (ne_zero : 0 ∉ lead) {step : Step} (plain : PlainMember step.member)
    (rest : CharPtr) :
    seenFrom (lead ++ 34 :: (step.keyText ++ rest)) =
      membersSeen [step.member] ++
        seenFrom ((leftOver step.member.value ++ step.behind.bytes) ++
          rest) := by
  obtain ⟨next, others, behind, delimits⟩ := step.behind.delimits
  have unquoted := unquoted_of_unescaped plain.unescaped
  have found := jsonGetNextObject_step no_quote ne_zero
    (keyPassed_of_unquoted unquoted) rest
  dsimp only at found
  have cut := valueLen_of_passed plain.value.passed delimits (others ++ rest)
  rw [← List.cons_append, ← behind] at cut
  have goesOn := next_of_cut cut (step.behind.bytes ++ rest)
  have all : ∀ byte ∈ rawText step.member.key, decide (byte ≠ 34) = true :=
    fun byte mem => decide_eq_true fun same => unquoted (same ▸ mem)
  have keyLen : step.keyLen = (rawText step.member.key).length := by
    rw [Step.keyLen, List.takeWhile_eq_self_iff.mpr all]
  rw [seenFrom_eq found, goesOn, List.append_assoc]
  congr 1
  apply seen_of_entry
  · dsimp only
    rw [keyLen, Step.keyText, List.append_assoc]
    exact sliceText_eq (rawText_ne_zero _) _
  · exact Step.keyLen_ne_zero.mpr plain.nonempty
  · rfl
  · exact cut
  · intro gap members value
    rw [value] at cut ⊢
    simp only [leftOver, List.length_nil, Nat.add_zero] at cut
    dsimp only
    rw [cut]
    exact sliceText_eq (Value.ne_zero _) _

/-- What the loop reads of the members of a whole text. -/
theorem seenFrom_steps (steps : List Step) {lead : List UInt8}
    (no_quote : 34 ∉ lead) (ne_zero : 0 ∉ lead)
    (plain : ∀ step ∈ steps, PlainMember step.member) (behind : CharPtr) :
    seenFrom (lead ++ (stepsText steps ++ 0 :: behind)) =
      membersSeen (steps.map Step.member) := by
  induction steps generalizing lead with
  | nil => exact seenFrom_unquoted no_quote ne_zero behind
  | cons step steps inductionHypothesis =>
      have pos_eq : stepsText (step :: steps) ++ 0 :: behind =
          34 :: (step.keyText ++ (stepsText steps ++ 0 :: behind)) := by
        simp [stepsText]
      have later := inductionHypothesis step.leftOver_no_quote
        step.leftOver_ne_zero fun other mem =>
          plain other (List.mem_cons_of_mem _ mem)
      rw [pos_eq, seenFrom_step no_quote ne_zero
        (plain step (List.mem_cons_self ..)), later]
      unfold membersSeen
      rw [List.map_cons, ← List.map_append, ← List.filter_append]
      rfl

/-- What the loop reads of a whole object. -/
theorem keysSeen_object (gap : Blanks) {members : List (Member Value)}
    (plain : ∀ member ∈ members, PlainMember member) (behind : CharPtr) :
    keysSeen ((Value.object gap members).text ++ 0 :: behind) =
      membersSeen members := by
  have nothing : (34 : UInt8) ∉ ([] : List UInt8) := List.not_mem_nil
  have nonzero : (0 : UInt8) ∉ ([] : List UInt8) := List.not_mem_nil
  have text_eq := object_text [] nothing nonzero gap members
  have same : (objectSteps [] nothing nonzero members).map Step.member =
      members := objectSteps_member _ _ _ _
  have each : ∀ step ∈ objectSteps [] nothing nonzero members,
      PlainMember step.member := fun step mem =>
    plain _ (same ▸ List.mem_map_of_mem mem)
  have read := seenFrom_steps _ (objectLead_no_quote nothing gap members)
    (objectLead_ne_zero nonzero gap members) each behind
  rw [same, ← List.append_assoc, ← text_eq, List.append_nil] at read
  rw [keysSeen, jsonObjectForEachKv, jsonGetObject_object]
  exact read

/-! ## What is added for a whole object -/

/-- The paths behind a prefix, as they are kept. -/
def keptPaths (pre : List UInt8) (paths : List (List (List UInt8))) :
    List (List UInt8) :=
  paths.map fun path => kept (pre ++ dotted path)

theorem keptPaths_append (pre : List UInt8)
    (first second : List (List (List UInt8))) :
    keptPaths pre (first ++ second) =
      keptPaths pre first ++ keptPaths pre second :=
  List.map_append

/-- The paths inside a member continue the path to it. -/
theorem keptPaths_inside (pre name : List UInt8) (value : Value) :
    keptPaths (kept (pre ++ name ++ [46])) value.paths =
      keptPaths pre (value.paths.map (name :: ·)) := by
  unfold keptPaths
  rw [List.map_map]
  apply List.map_congr_left
  intro path mem
  rw [Function.comp_apply, dotted_cons name (Value.paths_ne_nil mem),
    kept_kept_append]
  simp

/-- The keys added for a member, if those of an object are its paths. -/
theorem addedFor_member {behind : List UInt8 → CharPtr}
    {adds : CharPtr → List UInt8 → Option (List (List UInt8))}
    {member : Member Value} (plain : PlainMember member)
    (nonempty : member.value.content ≠ [])
    (inside : ∀ gap members, member.value = .object gap members → ∀ pre,
      adds (kept member.value.text ++ 0 :: behind (kept member.value.text))
        pre = some (keptPaths pre member.value.paths))
    (pre : List UInt8) :
    addedFor behind adds pre (memberSeen member) =
      some (keptPaths pre (memberPaths member)) := by
  have name := stringValue_eq_rawText plain.unescaped
  rw [memberPaths_eq, if_neg nonempty, name]
  have first : keptPaths pre ([rawText member.key] ::
      member.value.paths.map (rawText member.key :: ·)) =
      kept (pre ++ rawText member.key) ::
        keptPaths pre (member.value.paths.map (rawText member.key :: ·)) := by
    simp [keptPaths]
  rw [first, ← keptPaths_inside]
  cases value : member.value with
  | object gap members =>
      have deeper := inside gap members value
      rw [value] at deeper
      simp only [addedFor, memberSeen, value, deeper, Option.map_some]
  | _ => simp [addedFor, memberSeen, value, Value.paths, keptPaths]

/-- The keys added for members, if those of an object are its paths. -/
theorem added_members {behind : List UInt8 → CharPtr}
    {adds : CharPtr → List UInt8 → Option (List (List UInt8))}
    {members : List (Member Value)}
    (plain : ∀ member ∈ members, PlainMember member)
    (inside : ∀ member ∈ members, ∀ gap others,
      member.value = .object gap others → ∀ pre,
        adds (kept member.value.text ++ 0 :: behind (kept member.value.text))
          pre = some (keptPaths pre member.value.paths))
    (pre : List UInt8) :
    addedForAll behind adds pre (membersSeen members) =
      some (keptPaths pre (membersPaths members)) := by
  induction members with
  | nil => rfl
  | cons member members inductionHypothesis =>
      have later := inductionHypothesis
        (fun other mem => plain other (List.mem_cons_of_mem _ mem))
        fun other mem => inside other (List.mem_cons_of_mem _ mem)
      rw [membersPaths, keptPaths_append]
      by_cases empty : member.value.content = []
      · have passed :
            membersSeen (member :: members) = membersSeen members := by
          simp [membersSeen, empty]
        rw [passed, later, memberPaths_eq, if_pos empty]
        rfl
      · have seen : membersSeen (member :: members) =
            memberSeen member :: membersSeen members := by
          simp [membersSeen, empty]
        have one := addedFor_member (plain member (List.mem_cons_self ..)) empty
          (inside member (List.mem_cons_self ..)) pre
        rw [seen, addedForAll, one, later]
        rfl

/-- An object in an object is shorter. -/
theorem member_length (gap : Blanks) {members : List (Member Value)}
    {member : Member Value} (mem : member ∈ members) :
    member.value.text.length < (Value.object gap members).text.length := by
  have inside : member.value.text.length ≤ (membersText members).length := by
    induction members with
    | nil => cases mem
    | cons first members inductionHypothesis =>
        have written : (memberText first).length ≤
            (membersText (first :: members)).length := by
          cases members with
          | nil => exact Nat.le_refl _
          | cons next rest =>
              rw [membersText, List.length_append]
              omega
        have own : first.value.text.length ≤ (memberText first).length := by
          rw [memberText_eq]
          simp only [List.length_cons, List.length_append]
          omega
        rcases List.mem_cons.mp mem with rfl | later
        · omega
        · have rest := inductionHypothesis later
          cases members with
          | nil => cases later
          | cons next rest' =>
              rw [membersText, List.length_append, List.length_cons,
                List.length_append]
              omega
  rw [Value.text, List.length_cons, List.length_append, List.length_append]
  omega

/-- A whole object adds the paths to its members. -/
theorem added_object (behind : List UInt8 → CharPtr) {depth : Nat}
    {value : Value} (plain : Plain value) {gap : Blanks}
    {members : List (Member Value)} (object : value = .object gap members)
    (short : value.text.length < tempStringMaxlen)
    (enough : value.text.length ≤ depth) (rest : CharPtr)
    (pre : List UInt8) :
    added behind depth (value.text ++ 0 :: rest) pre =
      some (keptPaths pre value.paths) := by
  induction depth generalizing value gap members rest pre with
  | zero =>
      rw [object, Value.text, List.length_cons] at enough
      omega
  | succ depth inductionHypothesis =>
      subst object
      have each : ∀ member ∈ members, PlainMember member :=
        fun member mem => plain.member mem
      rw [added, keysSeen_object _ each, Value.paths]
      apply added_members each
      intro member mem inner others value pre
      have shorter := member_length gap mem
      rw [kept_of_le (by omega)]
      exact inductionHypothesis (each member mem).value value (by omega)
        (by omega) _ pre

/-- What is added for members with short objects. -/
theorem added_members_of_some {behind : List UInt8 → CharPtr} {depth : Nat}
    {members : List (Member Value)}
    (plain : ∀ member ∈ members, PlainMember member)
    (short : ∀ member ∈ members, ∀ gap others,
      member.value = .object gap others →
        member.value.text.length < tempStringMaxlen)
    {pre : List UInt8} {keys : List (List UInt8)}
    (found : addedForAll behind (added behind depth) pre
      (membersSeen members) = some keys) :
    keys = keptPaths pre (membersPaths members) := by
  let deeper := depth + (Value.object .none members).text.length
  have more : addedForAll behind (added behind deeper) pre
      (membersSeen members) = some keys :=
    addedForAll_mono (fun src pre keys =>
      added_mono (Nat.le_add_right depth _)) found
  have all : addedForAll behind (added behind deeper) pre
      (membersSeen members) = some (keptPaths pre (membersPaths members)) := by
    apply added_members plain
    intro member mem gap others value pre
    have shorter := member_length .none mem
    rw [kept_of_le (short member mem gap others value)]
    exact added_object behind (plain member mem).value value
      (short member mem gap others value) (by omega) _ pre
  exact Option.some.inj (more.symm.trans all)

end Json
end UIoT
