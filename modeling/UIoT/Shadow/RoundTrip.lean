import UIoT.Json.FirstMember
import UIoT.Shadow.DocumentNodes
import UIoT.Shadow.Values

/-!
# Property values written and read back

An object of nodes written by `put_json_node`, and what
`find_value_if_key_match` and `IOT_Shadow_Direct_Update_Value` read from it.
The keys and strings are plain bytes here, not those of the grammar: nothing
escapes them when they are written.
-/

namespace UIoT
namespace Shadow

open Json (CharPtr jsonGetNextObject search)

/-! ## Properties and objects -/

/-- The data is a number, a boolean, or a string without quotes and
backslashes. -/
def PropertyData.Simple (data : PropertyData) : Prop :=
  match data with
  | jstring value => 34 ∉ value.bytes ∧ 92 ∉ value.bytes
  | data => data.Numeric

/-- A property whose key is not empty and has no dots, quotes or colons in
it. -/
structure PlainProperty where
  key : CString
  data : PropertyData
  nonempty : key.bytes ≠ []
  plain : 46 ∉ key.bytes ∧ 34 ∉ key.bytes ∧ 58 ∉ key.bytes
  simple : data.Simple

/-- `DeviceProperty` of a property with data. -/
def PlainProperty.deviceProperty (property : PlainProperty) : DeviceProperty :=
  ⟨property.key, some property.data⟩

/-- Every property is put into the buffer, with success and in whole. -/
def Builds (sizeOfBuffer : Nat) :
    List PlainProperty → (before after : List UInt8) → Prop
  | [], before, after => after = before
  | property :: properties, before, after =>
      let node := nodeText property.key (some property.data)
      putJsonNode before sizeOfBuffer property.key (some property.data) =
          (before ++ node, .successRet) ∧
        Builds sizeOfBuffer properties (before ++ node) after

/-- In an ordinary buffer with room for all nodes they are put. -/
theorem builds_of_room {sizeOfBuffer : Nat} (small : sizeOfBuffer < 2 ^ 31)
    {properties : List PlainProperty} {before : List UInt8}
    (room : before.length + (properties.flatMap fun property =>
      nodeText property.key (some property.data)).length < sizeOfBuffer) :
    Builds sizeOfBuffer properties before
      (before ++ properties.flatMap fun property =>
        nodeText property.key (some property.data)) := by
  induction properties generalizing before with
  | nil => exact List.append_nil before
  | cons property properties inductionHypothesis =>
      rw [List.flatMap_cons, List.length_append] at room
      refine ⟨putJsonNode_fits small _ _ (by omega), ?_⟩
      rw [List.flatMap_cons, ← List.append_assoc]
      refine inductionHypothesis ?_
      rw [List.length_append]
      omega

/-- The end of an object, in the place of the last comma. -/
def closeObject (text : List UInt8) : List UInt8 :=
  (if text.getLast? = some 44 then text.dropLast else text) ++ ascii "\x7d"

/-- The value is found under the key, as it was printed, and a number or a
boolean is restored from it. -/
def RoundTrips (readFloat : List UInt8 → Option CString) (document : CharPtr)
    (property : PlainProperty) : Prop :=
  ∃ value, findValueIfKeyMatch true document property.deviceProperty =
      some value ∧
    value = property.data.text ∧
    (property.data.Numeric → ∀ old : PropertyData,
      old.type = property.data.type →
        iotShadowDirectUpdateValue readFloat value old =
          (property.data, .successRet))

/-- The search takes the property for one of the key. -/
def PlainProperty.Meets (key : CString) (property : PlainProperty) : Prop :=
  property.data.text ≠ [] ∧ key.bytes <+: property.key.bytes

instance (key : CString) (property : PlainProperty) :
    Decidable (property.Meets key) :=
  inferInstanceAs (Decidable (_ ∧ _))

/-- The first property met for the key has the same printed value, and that does
not look like null. -/
def PlainProperty.Found (properties : List PlainProperty)
    (property : PlainProperty) : Prop :=
  ¬NullLike property.data.text ∧
    ∃ first, (properties.find? fun other => other.Meets property.key) =
        some first ∧ first.data.text = property.data.text

/-! ## The text of an object -/

/-- The value of a property as it stands in a document. -/
def PropertyData.raw : PropertyData → List UInt8
  | jstring value => 34 :: (value.bytes ++ [34])
  | data => data.text

/-- A node without its comma. -/
def PlainProperty.body (property : PlainProperty) : List UInt8 :=
  34 :: (property.key.bytes ++ 34 :: 58 :: property.data.raw)

/-- The text of properties behind a byte. -/
def bodies (lead : UInt8) : List PlainProperty → List UInt8
  | [] => [125]
  | property :: properties => lead :: (property.body ++ bodies 44 properties)

theorem nodeText_eq (property : PlainProperty) :
    nodeText property.key (some property.data) = property.body ++ [44] := by
  have printed : property.data.printed = property.data.raw ++ [44] := by
    cases property.data with
    | jstring value =>
        change [34] ++ value.bytes ++ [34, 44] =
          34 :: (value.bytes ++ [34]) ++ [44]
        simp
    | _ => rfl
  have key : keyText property.key = 34 :: (property.key.bytes ++ [34, 58]) :=
    rfl
  unfold nodeText valueText PlainProperty.body
  rw [Option.map_some, Option.getD_some, printed, key]
  simp

theorem builds_text {sizeOfBuffer : Nat} {properties : List PlainProperty}
    {before after : List UInt8}
    (built : Builds sizeOfBuffer properties before after) :
    after = before ++ properties.flatMap fun property =>
      property.body ++ [44] := by
  induction properties generalizing before with
  | nil => exact (show after = before from built).trans (List.append_nil _).symm
  | cons property properties inductionHypothesis =>
      rw [inductionHypothesis built.2, nodeText_eq, List.flatMap_cons,
        List.append_assoc]

/-- The text of properties ends where their last comma would stand. -/
theorem bodies_front {properties : List PlainProperty}
    (some : properties ≠ []) (lead : UInt8) :
    ∃ front, (lead :: properties.flatMap fun property =>
        property.body ++ [44]) = front ++ [44] ∧
      front ++ [125] = bodies lead properties := by
  induction properties generalizing lead with
  | nil => exact absurd rfl some
  | cons property properties inductionHypothesis =>
      cases properties with
      | nil => exact ⟨lead :: property.body, by simp, by simp [bodies]⟩
      | cons next properties =>
          obtain ⟨front, nodes, ending⟩ :=
            inductionHypothesis (List.cons_ne_nil _ _) 44
          refine ⟨lead :: (property.body ++ front), ?_, ?_⟩
          · rw [List.flatMap_cons, List.append_assoc, List.singleton_append,
              nodes]
            simp
          · rw [bodies, ← ending]
            simp

/-- What is built is the text of the properties. -/
theorem closeObject_of_builds {sizeOfBuffer : Nat}
    {properties : List PlainProperty} {text : List UInt8}
    (built : Builds sizeOfBuffer properties (ascii "\x7b") text)
    (some : properties ≠ []) : closeObject text = bodies 123 properties := by
  obtain ⟨front, nodes, ending⟩ := bodies_front some 123
  have whole : text = front ++ [44] := (builds_text built).trans nodes
  unfold closeObject
  rw [whole, List.getLast?_concat, if_pos rfl, List.dropLast_concat, ← ending]
  rfl

/-! ## Reading an object -/

/-- A number or a boolean is printed as a sign or a digit, and digits. -/
theorem text_numeric {data : PropertyData} (numeric : data.Numeric) :
    ∃ first rest, data.text = first :: rest ∧
      (first = 45 ∨ 48 ≤ first ∧ first ≤ 57) ∧
      ∀ byte ∈ rest, 48 ≤ byte ∧ byte ≤ 57 := by
  have printed : ∀ number : Int, ∃ first rest, decimal number = first :: rest ∧
      (first = 45 ∨ 48 ≤ first ∧ first ≤ 57) ∧
      ∀ byte ∈ rest, 48 ≤ byte ∧ byte ≤ 57 := by
    intro number
    have range := DecimalDigits.digits_range number.natAbs
    by_cases negative : number < 0
    · exact ⟨45, DecimalDigits.digits number.natAbs, decimal_of_neg negative,
        .inl rfl, range⟩
    · obtain ⟨first, rest, begins⟩ := List.exists_cons_of_ne_nil
        (DecimalDigits.digits_ne_nil number.natAbs)
      rw [begins] at range
      obtain ⟨head, tail⟩ := List.forall_mem_cons.mp range
      refine ⟨first, rest, ?_, .inr head, tail⟩
      rw [← begins]
      exact decimal_of_nonneg (by omega)
  cases data with
  | jint32 value => exact printed value.toInt
  | jint16 value => exact printed value.toInt
  | jint8 value => exact printed value.toInt
  | juint32 value => exact printed value.toNat
  | juint16 value => exact printed value.toNat
  | juint8 value => exact printed value.toNat
  | jbool value => exact printed _
  | jfloat value => exact absurd numeric id
  | jdouble value => exact absurd numeric id
  | jstring value => exact absurd numeric id
  | jobject value => exact absurd numeric id

/-- Behind a value there is a comma or a closing brace. -/
def Ends (byte : UInt8) : Prop := byte = 44 ∨ byte = 125

theorem Ends.delimits {byte : UInt8} (ends : Ends byte) :
    Json.Delimits byte := by
  rcases ends with rfl | rfl <;> exact ⟨by decide, by decide, by decide⟩

theorem raw_numeric {data : PropertyData} (numeric : data.Numeric) :
    data.raw = data.text := by
  cases data with
  | jstring value => exact absurd numeric id
  | _ => rfl

theorem findValue_colon (rest : CharPtr) :
    Json.findValue (58 :: rest) = Json.findValue rest := by
  rw [Json.findValue, if_neg (by decide), if_neg (by decide),
    if_neg (by decide), if_neg (by decide), if_neg (by decide),
    if_neg (by decide), if_neg (by decide)]

/-- The value of a property is found behind its colon and cut out of the
text. -/
theorem findValue_raw {data : PropertyData} (simple : data.Simple)
    {next : UInt8} (ends : Ends next) (rest : CharPtr) :
    ∃ type val more,
      Json.findValue (58 :: (data.raw ++ next :: rest)) = some (type, val) ∧
        Json.valueLen type val = data.text.length ∧ val = data.text ++ more ∧
        (if type = .string then val.drop (data.text.length + 1)
          else val.drop data.text.length) = next :: rest := by
  rw [findValue_colon]
  by_cases numeric : data.Numeric
  · obtain ⟨first, digits, text, head, range⟩ := text_numeric numeric
    have plain : first ≠ 0 ∧ first ≠ 34 ∧ first ≠ 123 ∧ first ≠ 91 := by
      rcases head with rfl | ⟨low, high⟩
      · decide
      · refine ⟨?_, ?_, ?_, ?_⟩ <;> rintro rfl <;> revert low high <;> decide
    refine ⟨.number, data.text ++ next :: rest, next :: rest, ?_, ?_, rfl, ?_⟩
    · rw [raw_numeric numeric, text, List.cons_append, Json.findValue,
        if_neg plain.1, if_neg plain.2.1, if_neg plain.2.2.1,
        if_neg plain.2.2.2, if_pos head]
    · rw [text]
      exact (Json.numberLen_digits (fun byte mem => .inl (range byte mem))
        ends.delimits rest 1).trans (Nat.add_comm ..)
    · exact List.drop_left
  · cases data with
    | jstring value =>
        refine ⟨.string, value.bytes ++ 34 :: next :: rest,
          34 :: next :: rest, ?_, ?_, rfl, ?_⟩
        · simp [PropertyData.raw, Json.findValue]
        · have marked := Json.markedLen_quote simple.1 value.zero_not_mem
            (next :: rest) 0
          rw [Json.valueLen, marked]
          exact Nat.zero_add _
        · simp [PropertyData.text]
    | jfloat value => exact absurd simple id
    | jdouble value => exact absurd simple id
    | jobject value => exact absurd simple id
    | _ => exact absurd trivial numeric

/-- The entry found at a property. -/
theorem jsonGetNextObject_body (property : PlainProperty) {lead next : UInt8}
    (visible : lead ≠ 0 ∧ lead ≠ 34) (ends : Ends next) (rest : CharPtr) :
    ∃ entry more,
      jsonGetNextObject (lead :: (property.body ++ next :: rest)) =
          some entry ∧
        entry.key = property.key.bytes ++ 34 :: more ∧
        entry.keyLen = property.key.bytes.length ∧
        (∃ behind, entry.val = property.data.text ++ behind) ∧
        entry.valLen = property.data.text.length ∧
        entry.next = next :: rest := by
  obtain ⟨type, val, behind, found, length, begins, goesOn⟩ :=
    findValue_raw property.simple ends rest
  let value := property.data.raw ++ next :: rest
  have opening : Json.strchr 34 (lead :: (property.body ++ next :: rest)) =
      some (34 :: (property.key.bytes ++ 34 :: 58 :: value)) := by
    rw [Json.strchr, if_neg visible.2, if_neg visible.1,
      PlainProperty.body, List.cons_append, Json.strchr, if_pos rfl]
    simp [value]
  have closing : Json.strchr 34 (property.key.bytes ++ 34 :: 58 :: value) =
      some (34 :: 58 :: value) :=
    Json.strchr_found property.plain.2.1 property.key.zero_not_mem _
  have colon : Json.strchr 58 (34 :: 58 :: value) = some (58 :: value) := rfl
  refine ⟨{ key := property.key.bytes ++ 34 :: 58 :: value
            keyLen := property.key.bytes.length
            val
            valLen := property.data.text.length
            valType := type
            next := next :: rest }, 58 :: value, ?_, rfl, rfl,
    ⟨behind, begins⟩, rfl, rfl⟩
  unfold jsonGetNextObject
  simp only [opening, List.tail_cons, closing, colon, value, found, length,
    goesOn]
  simp

theorem text_ne_zero {data : PropertyData} (simple : data.Simple) :
    0 ∉ data.text := by
  by_cases numeric : data.Numeric
  · obtain ⟨first, digits, text, head, range⟩ := text_numeric numeric
    rw [text]
    intro mem
    rcases List.mem_cons.mp mem with rfl | later
    · exact absurd head (by decide)
    · exact absurd (range 0 later) (by decide)
  · cases data with
    | jstring value => exact value.zero_not_mem
    | jfloat value => exact absurd simple id
    | jdouble value => exact absurd simple id
    | jobject value => exact absurd simple id
    | _ => exact absurd trivial numeric

/-- Behind a value the text goes on with a comma or ends with a brace. -/
theorem bodies_ends (properties : List PlainProperty) :
    ∃ next rest, bodies 44 properties = next :: rest ∧ Ends next := by
  cases properties with
  | nil => exact ⟨125, [], rfl, .inr rfl⟩
  | cons property properties => exact ⟨44, _, rfl, .inl rfl⟩

/-- A search among properties ends at the first that meets the key. -/
theorem search_bodies (key : CString) (unquoted : 34 ∉ key.bytes)
    (properties : List PlainProperty) {lead : UInt8}
    (visible : lead ≠ 0 ∧ lead ≠ 34) (behind : CharPtr) :
    (search key.bytes (bodies lead properties ++ 0 :: behind)).map
        Json.copied =
      (properties.find? fun other => other.Meets key).map
        fun other => other.data.text := by
  induction properties generalizing lead with
  | nil =>
      have nothing : search key.bytes ([125] ++ 0 :: behind) = none :=
        Json.search_none (by decide) (by decide) behind
      rw [bodies, nothing]
      rfl
  | cons property properties inductionHypothesis =>
      obtain ⟨next, rest, follows, ends⟩ := bodies_ends properties
      have goesOn : bodies 44 properties ++ 0 :: behind =
          next :: (rest ++ 0 :: behind) := by rw [follows, List.cons_append]
      obtain ⟨entry, more, found, name, nameLen, ⟨tail, val⟩, valLen, after⟩ :=
        jsonGetNextObject_body property visible ends (rest ++ 0 :: behind)
      have text_eq : bodies lead (property :: properties) ++ 0 :: behind =
          lead :: (property.body ++ next :: (rest ++ 0 :: behind)) := by
        rw [bodies, List.cons_append, List.append_assoc, goesOn]
      have meets : (entry.reported &&
          Json.strncmpEq entry.key key.bytes key.bytes.length) = true ↔
          property.Meets key := by
        have named := property.nonempty
        rw [Bool.and_eq_true, Json.strncmpEq_iff key.zero_not_mem,
          Json.Entry.reported, nameLen, valLen, name]
        constructor
        · rintro ⟨reported, isPrefix⟩
          have reported : property.key.bytes.length ≠ 0 ∧
              property.data.text.length ≠ 0 := by simpa using reported
          exact ⟨fun empty => reported.2 (List.length_eq_zero_iff.mpr empty),
            Json.prefix_of_terminated unquoted isPrefix⟩
        · rintro ⟨nonempty, isPrefix⟩
          exact ⟨by simp [named, nonempty],
            isPrefix.trans (List.prefix_append ..)⟩
      have position : Json.deref
          (lead :: (property.body ++ next :: (rest ++ 0 :: behind))) ≠ 0 :=
        visible.1
      rw [text_eq, Json.search_eq position found, after]
      by_cases met : property.Meets key
      · have value := Json.copied_eq (text_ne_zero property.simple) tail
        rw [if_pos (meets.mpr met), List.find?_cons_of_pos (by simpa using met),
          Option.map_some, Option.map_some, val, valLen, value]
      · rw [if_neg (mt meets.mp met),
          List.find?_cons_of_neg (by simpa using met), ← goesOn]
        exact inductionHypothesis (by decide)

/-! ## Round trips -/

/-- A key of an object is answered with the first property that meets it. -/
theorem findValueIfKeyMatch_bodies {properties : List PlainProperty}
    {property : PlainProperty} (mem : property ∈ properties)
    (behind : CharPtr) :
    findValueIfKeyMatch true (bodies 123 properties ++ 0 :: behind)
        property.deviceProperty =
      ((properties.find? fun other => other.Meets property.key).map
        fun other => other.data.text).filter fun text => ¬NullLike text := by
  obtain ⟨undotted, unquoted, -⟩ := property.plain
  have brace : (123 : UInt8) ≠ 0 ∧ (123 : UInt8) ≠ 34 := by decide
  have found := search_bodies property.key unquoted properties brace behind
  have single : property.key.bytes.splitOn 46 = [property.key.bytes] :=
    List.splitOn_eq_singleton undotted
  have opens : Json.jsonGetObject (bodies 123 properties ++ 0 :: behind) =
      some (bodies 123 properties ++ 0 :: behind) := by
    cases properties with
    | nil => exact absurd mem List.not_mem_nil
    | cons first properties => rfl
  have key : property.deviceProperty.key = property.key := rfl
  rw [findValueIfKeyMatch_filter, key, Json.liteJsonCopyOf_true,
    Json.liteJsonValueOf, single, Json.valueAlong_eq, opens]
  dsimp only [Json.valueFrom]
  rw [← found]
  rfl

theorem roundTrips_bodies_iff (readFloat : List UInt8 → Option CString)
    {properties : List PlainProperty} {property : PlainProperty}
    (mem : property ∈ properties) (behind : CharPtr) :
    RoundTrips readFloat (bodies 123 properties ++ 0 :: behind) property ↔
      property.Found properties := by
  unfold RoundTrips PlainProperty.Found
  rw [findValueIfKeyMatch_bodies mem]
  constructor
  · rintro ⟨value, found, rfl, -⟩
    obtain ⟨answered, other⟩ := Option.filter_eq_some_iff.mp found
    obtain ⟨first, met, text⟩ := Option.map_eq_some_iff.mp answered
    exact ⟨of_decide_eq_true other, first, met, text⟩
  · rintro ⟨other, first, met, text⟩
    refine ⟨property.data.text, ?_, rfl, fun numeric old sameType =>
      iotShadowDirectUpdateValue_text readFloat numeric sameType⟩
    rw [met, Option.map_some, text, Option.filter_some,
      if_pos (decide_eq_true other)]

/-- All values are found and restored exactly if each property is the first that
is met for its key, or has the same value as that, which does not look like
null. -/
theorem roundTrips_iff (readFloat : List UInt8 → Option CString)
    {sizeOfBuffer : Nat} {properties : List PlainProperty} {text : List UInt8}
    (built : Builds sizeOfBuffer properties (ascii "\x7b") text)
    (behind : CharPtr) :
    (∀ property ∈ properties,
        RoundTrips readFloat (closeObject text ++ 0 :: behind) property) ↔
      ∀ property ∈ properties, property.Found properties := by
  refine forall₂_congr fun property mem => ?_
  rw [closeObject_of_builds built (List.ne_nil_of_mem mem)]
  exact roundTrips_bodies_iff readFloat mem behind

/-- A property with a small number. -/
def numberProperty (key : List UInt8) (value : Int8)
    (zero_not_mem : 0 ∉ key) (nonempty : key ≠ [])
    (plain : 46 ∉ key ∧ 34 ∉ key ∧ 58 ∉ key) : PlainProperty :=
  ⟨⟨key, zero_not_mem⟩, .jint8 value, nonempty, plain, trivial⟩

/-- Properties of which the keys begin with one another, the shorter key
first. -/
def shorterFirst : List PlainProperty :=
  [numberProperty [97] 2 CString.zero_not_mem_a (by decide) (by decide),
    numberProperty [97, 98] (-1) CString.zero_not_mem_ab (by decide)
      (by decide)]

/-- With the shorter key first both values are restored. -/
theorem shorterFirst_roundTrips :
    Builds 64 shorterFirst (ascii "\x7b") (ascii "\x7b" ++
      shorterFirst.flatMap fun property =>
        nodeText property.key (some property.data)) ∧
    ∀ property ∈ shorterFirst, RoundTrips (fun _ => none)
      (closeObject (ascii "\x7b" ++ shorterFirst.flatMap fun property =>
        nodeText property.key (some property.data)) ++ [0]) property :=
  have built := builds_of_room (by decide)
    (by decide +kernel : (ascii "\x7b").length + (shorterFirst.flatMap
      fun property => nodeText property.key (some property.data)).length < 64)
  have met : ∀ property ∈ shorterFirst, property.Found shorterFirst :=
    List.forall_mem_cons.mpr ⟨⟨by decide +kernel, _, rfl, rfl⟩,
      List.forall_mem_singleton.mpr ⟨by decide +kernel, _, rfl, rfl⟩⟩
  ⟨built, (roundTrips_iff (fun _ => none) built []).mpr met⟩

/-- With the longer key first the shorter one is answered with the value of the
other. -/
theorem longerFirst_mistaken :
    ¬∀ (readFloat : List UInt8 → Option CString) (sizeOfBuffer : Nat)
      (properties : List PlainProperty) (text behind : List UInt8),
      (properties.map PlainProperty.key).Nodup →
        Builds sizeOfBuffer properties (ascii "\x7b") text →
          ∀ property ∈ properties,
            RoundTrips readFloat (closeObject text ++ 0 :: behind)
              property := by
  intro all
  have built := builds_of_room (by decide : 64 < 2 ^ 31)
    (by decide +kernel : (ascii "\x7b").length + (shorterFirst.reverse.flatMap
      fun property => nodeText property.key (some property.data)).length < 64)
  obtain ⟨value, found, same, -⟩ := all (fun _ => none) _ _ _ []
    (by decide +kernel) built
    (numberProperty [97] 2 (by decide) (by decide) (by decide))
    (.tail _ (.head _))
  rw [same] at found
  exact absurd found (by decide +kernel)

end Shadow
end UIoT
