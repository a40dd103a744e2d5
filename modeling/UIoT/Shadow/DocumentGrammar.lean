import UIoT.Library.JsonMeaning
import UIoT.Shadow.DocumentBounds

/-!
# What a document means

Keys and strings are inserted into a document as they are, the version is
printed with a sign, and the end of an update replaces the brace of a list that
is empty.  The document in a buffer with room is the JSON object the method
calls for exactly where none of this shows.
-/

namespace UIoT
namespace Shadow

open JsonSyntax (Fields Meaning ObjectDocument PlainByte WellFormed memberText)

/-! ## What a method calls for -/

/-- The value of a property, a boolean as a number. -/
def PropertyData.meaning : PropertyData → Meaning
  | jint32 value => .number (decimal value.toInt)
  | jint16 value => .number (decimal value.toInt)
  | jint8 value => .number (decimal value.toInt)
  | juint32 value => .number (decimal value.toNat)
  | juint16 value => .number (decimal value.toNat)
  | juint8 value => .number (decimal value.toNat)
  | jfloat printed => .number printed.bytes
  | jdouble printed => .number printed.bytes
  | jbool value => .number (decimal (if value then 1 else 0))
  | jstring value => .string value.bytes
  | jobject value => .embedded value.bytes

/-- The listed properties with their values, in the order of the iteration. -/
def reportedFields (method : Method) : List DeviceProperty → Fields
  | [] => .nil
  | property :: properties =>
      .cons property.key.bytes
        (((contentData method property).map PropertyData.meaning).getD .null)
        (reportedFields method properties)

/-- The name of the operation. -/
def methodName : Method → List UInt8
  | .get => ascii "get"
  | .update | .updateAndResetVer | .replyControlUpdate => ascii "update"
  | .delete | .deleteAll | .replyControlDelete => ascii "delete"

/-- The fields of the state: what is reported, and of a reply to a control that
nothing is desired any more. -/
def stateFields (params : RequestParams) : Fields :=
  let reported := Meaning.object
    (reportedFields params.method params.propertyDeltaList.reverse)
  let desired := Fields.cons (ascii "Desired") .null .nil
  match params.method with
  | .get => .nil
  | .update | .updateAndResetVer | .delete =>
      .cons (ascii "Reported") reported .nil
  | .deleteAll => .cons (ascii "Reported") .null .nil
  | .replyControlUpdate | .replyControlDelete =>
      if params.propertyDeltaList = [] then desired
      else .cons (ascii "Reported") reported desired

/-- The version, or the number that resets it. -/
def versionText (method : Method) (version : UInt32) : List UInt8 :=
  match method with
  | .updateAndResetVer => decimal (-1)
  | _ => decimal version.toNat

/-- The object the method calls for. -/
def documentMeaning (params : RequestParams) (version : UInt32) : Meaning :=
  let method := Meaning.string (methodName params.method)
  match params.method with
  | .get => .object (.cons (ascii "Method") method .nil)
  | _ =>
      .object (.cons (ascii "Method") method
        (.cons (ascii "State") (.object (stateFields params))
          (.cons (ascii "Version")
            (.number (versionText params.method version)) .nil)))

/-- The document is one JSON object, with the fields the method calls for. -/
def MeansRequest (document : List UInt8) (params : RequestParams)
    (version : UInt32) : Prop :=
  ∃ tree : ObjectDocument, tree.text = document ∧
    (documentMeaning params version).Of tree.before tree.value tree.after

/-! ## What can be written -/

/-- The value can be inserted as it is. -/
def PropertyData.Writable : PropertyData → Prop
  | jfloat printed | jdouble printed =>
      ∃ number : JsonSyntax.Number, number.bytes = printed.bytes
  | jstring value => ∀ byte ∈ value.bytes, PlainByte byte
  | jobject value => WellFormed value.bytes
  | _ => True

/-- The method prints a version. -/
def PrintsVersion (method : Method) : Prop :=
  method ≠ .get ∧ method ≠ .updateAndResetVer

/-- The end replaces the last byte even where no property is listed. -/
def ReplacesBrace (method : Method) : Prop :=
  method = .update ∨ method = .updateAndResetVer ∨ method = .delete

/-- The version has no sign bit, a list is there where it is taken for granted,
and all keys and values can be inserted as they are. -/
structure Writable (params : RequestParams) (version : UInt32) : Prop where
  version : PrintsVersion params.method → version.toNat < 2 ^ 31
  listed : ReplacesBrace params.method → params.propertyDeltaList ≠ []
  keys : Carries params → ∀ property ∈ params.propertyDeltaList,
    ∀ byte ∈ property.key.bytes, PlainByte byte
  values : Carries params → ∀ property ∈ params.propertyDeltaList,
    ∀ data ∈ contentData params.method property, data.Writable

/-! ## Room -/

/-- In the buffer everything of the document fits where it is printed. -/
def Roomy (sizeOfBuffer : Nat) (params : RequestParams) (version : UInt32) :
    Prop :=
  let head := documentHead params
  let content := documentContent params
  Fits sizeOfBuffer head ∧
    (if Carries params then
      LoopFits params.method sizeOfBuffer params.propertyDeltaList.reverse
        head.length
    else Fits (sizeOfBuffer - head.length) content) ∧
    Fits (sizeOfBuffer - (head ++ content).length)
      (documentTail params version).2

/-- The document in a buffer with room. -/
def writtenDocument (params : RequestParams) (version : UInt32) : List UInt8 :=
  let text := documentHead params ++ documentContent params
  let tail := documentTail params version
  text.take (text.length - tail.1) ++ tail.2

theorem loopFits_of_twice {method : Method} {sizeOfBuffer : Nat}
    (small : sizeOfBuffer < 2 ^ 31) {properties : List DeviceProperty}
    {used : Nat}
    (room : 2 * (used + (loopNodes method properties).length) < sizeOfBuffer) :
    LoopFits method sizeOfBuffer properties used := by
  induction properties generalizing used with
  | nil => trivial
  | cons property properties inductionHypothesis =>
      rw [loopNodes, List.flatMap_cons, ← loopNodes, List.length_append] at room
      have node_length : (nodeText property.key
          (contentData method property)).length = (keyText property.key).length
            + (valueText (contentData method property)).length :=
        List.length_append
      have both := (nodeFits_iff (by omega :
        sizeOfBuffer - used - used < 2 ^ 31) property.key
          (contentData method property)).mpr (by omega)
      exact ⟨both.1, both.2, inductionHypothesis (by omega)⟩

/-- Twice the length of the document is room enough. -/
theorem roomy_of_twice {sizeOfBuffer : Nat} {params : RequestParams}
    {version : UInt32} (small : sizeOfBuffer < 2 ^ 31)
    (room : 2 * (documentHead params ++ documentContent params).length +
      (documentTail params version).2.length < sizeOfBuffer) :
    Roomy sizeOfBuffer params version := by
  rw [List.length_append] at room
  refine ⟨(fits_iff small _).mpr (by omega), ?_,
    (fits_iff (by omega) _).mpr (by rw [List.length_append]; omega)⟩
  split
  · rename_i carries
    rw [documentContent_carries carries] at room
    exact loopFits_of_twice small (by omega)
  · exact (fits_iff (by omega) _).mpr (by omega)

/-- In a buffer with room the content is put, unless no iterator is there. -/
theorem setContent_of_roomy {sizeOfBuffer : Nat} {params : RequestParams}
    {version : UInt32} {iteratorAllocated : Bool} (word : sizeOfBuffer < 2 ^ 64)
    (roomy : Roomy sizeOfBuffer params version)
    (allocated : Carries params → iteratorAllocated = true) :
    shadowJsonSetContent (documentHead params) sizeOfBuffer params
        iteratorAllocated =
      (documentHead params ++ documentContent params, .successRet) := by
  obtain ⟨headFits, contentFits, -⟩ := roomy
  have below : (documentHead params).length ≤ sizeOfBuffer := headFits.1.le
  by_cases carries : Carries params
  · rw [if_pos carries] at contentFits
    obtain ⟨-, nodes, -⟩ := loop_of_fits word below contentFits
    rw [(setContent_carries carries (documentHead params) sizeOfBuffer
      iteratorAllocated).1, if_pos (allocated carries), nodes,
      documentContent_carries carries]
  · rw [if_neg carries] at contentFits
    exact (setContent_of_fits carries word below contentFits
      iteratorAllocated).1

theorem buildDocument_of_roomy {pJsonDoc : List UInt8} {sizeOfBuffer : Nat}
    {params : RequestParams} {version : UInt32} {iteratorAllocated : Bool}
    (word : sizeOfBuffer < 2 ^ 64) (roomy : Roomy sizeOfBuffer params version)
    (allocated : Carries params → iteratorAllocated = true) :
    buildDocument (some pJsonDoc) sizeOfBuffer params version
        iteratorAllocated = .ok (writtenDocument params version) := by
  have begun : (shadowJsonInit pJsonDoc sizeOfBuffer params).1 =
      documentHead params := shadowJsonInit_of_fits roomy.1
  have nonempty : documentHead params ++ documentContent params ≠ [] := by
    have head := (documentHead_length params).1
    exact List.append_ne_nil_of_left_ne_nil
      (List.ne_nil_of_length_pos (by omega)) _
  exact (buildDocument_ok begun (setContent_of_roomy word roomy allocated)
    _).mpr ⟨rfl, (finalize_of_fits word nonempty roomy.2.2).2⟩

/-- What is built in a buffer with room is the written document. -/
theorem buildDocument_written {pJsonDoc document : List UInt8}
    {sizeOfBuffer : Nat} {params : RequestParams} {version : UInt32}
    {iteratorAllocated : Bool} (word : sizeOfBuffer < 2 ^ 64)
    (roomy : Roomy sizeOfBuffer params version)
    (built : buildDocument (some pJsonDoc) sizeOfBuffer params version
      iteratorAllocated = .ok document) :
    document = writtenDocument params version := by
  have begun : (shadowJsonInit pJsonDoc sizeOfBuffer params).1 =
      documentHead params := shadowJsonInit_of_fits roomy.1
  have allocated : Carries params → iteratorAllocated = true := by
    intro carries
    by_contra missing
    have set := (setContent_carries carries (documentHead params) sizeOfBuffer
      iteratorAllocated).1
    rw [if_neg missing] at set
    exact absurd ((buildDocument_ok begun set document).mp built).1 nofun
  have written : Except.ok document = .ok (writtenDocument params version) :=
    built.symm.trans (buildDocument_of_roomy word roomy allocated)
  exact Except.ok.inj written

/-! ## The written text -/

theorem valueText_written (data : Option PropertyData) :
    valueText data =
      ((data.map PropertyData.meaning).getD .null).written ++ [44] := by
  cases data with
  | none => rfl
  | some data =>
      cases data with
      | jstring value =>
          change [34] ++ value.bytes ++ [34, 44] =
            34 :: (value.bytes ++ [34]) ++ [44]
          simp
      | _ => rfl

/-- The nodes are the fields with a comma behind them. -/
theorem loopNodes_written {method : Method} {properties : List DeviceProperty}
    (some : properties ≠ []) :
    loopNodes method properties =
      (reportedFields method properties).written ++ [44] := by
  have node : ∀ property : DeviceProperty,
      nodeText property.key (contentData method property) =
        34 :: (property.key.bytes ++ 34 :: 58 ::
          (((contentData method property).map
            PropertyData.meaning).getD .null).written) ++ [44] := by
    intro property
    have key : keyText property.key =
        34 :: (property.key.bytes ++ [34, 58]) := rfl
    rw [nodeText, valueText_written, key]
    simp
  induction properties with
  | nil => exact absurd rfl some
  | cons property properties inductionHypothesis =>
      rw [loopNodes, List.flatMap_cons, ← loopNodes, node]
      cases properties with
      | nil => simp [loopNodes, reportedFields, Fields.written]
      | cons next properties =>
          rw [inductionHypothesis (List.cons_ne_nil _ _)]
          simp [reportedFields, Fields.written]

/-- The version as it is printed. -/
def printedVersion (method : Method) (version : UInt32) : List UInt8 :=
  match method with
  | .updateAndResetVer => ascii "-1"
  | _ => decimal version.toInt32.toInt

/-- What is to stand in front of the version. -/
def frontText (params : RequestParams) : List UInt8 :=
  ascii "\x7b\"Method\":\"" ++ methodName params.method ++
    ascii "\",\"State\":\x7b" ++ (stateFields params).written ++ ascii "\x7d"

theorem documentMeaning_written {params : RequestParams} {version : UInt32}
    (notGet : params.method ≠ .get) :
    (documentMeaning params version).written =
      frontText params ++ ascii ",\"Version\":" ++
        versionText params.method version ++ [125] := by
  unfold documentMeaning frontText
  cases method : params.method with
  | get => exact absurd method notGet
  | _ => simp [Meaning.written, Fields.written, ascii]

/-- With properties the front is written as it is to be. -/
theorem writtenDocument_carries {params : RequestParams} {version : UInt32}
    (carries : Carries params) :
    writtenDocument params version =
      frontText params ++ ascii ",\"Version\":" ++
        printedVersion params.method version ++ [125] := by
  have reversed := mt List.reverse_eq_nil_iff.mp carries.2.2
  have text : documentHead params ++ documentContent params =
      documentHead params ++ (reportedFields params.method
        params.propertyDeltaList.reverse).written ++ [44] := by
    rw [documentContent_carries carries, loopNodes_written reversed,
      List.append_assoc]
  unfold writtenDocument
  dsimp only
  rw [text, documentTail_carries carries, List.length_append,
    List.length_singleton, Nat.add_sub_cancel, List.take_left]
  obtain ⟨notGet, notAll, some⟩ := carries
  unfold documentHead documentTail frontText stateFields
  cases method : params.method with
  | get => exact absurd method notGet
  | deleteAll => exact absurd method notAll
  | _ => simp [some, Meaning.written, Fields.written, ascii, methodName,
      printedVersion, JsonSyntax.Literal.bytes]

/-- The front is written as it is to be, or it lacks a brace. -/
theorem writtenDocument_front {params : RequestParams} (version : UInt32)
    (notGet : params.method ≠ .get) :
    ∃ front, writtenDocument params version =
        front ++ ascii ",\"Version\":" ++
          printedVersion params.method version ++ [125] ∧
      ((ReplacesBrace params.method → params.propertyDeltaList ≠ []) →
        front = frontText params) ∧
      (ReplacesBrace params.method → params.propertyDeltaList = [] →
        front.length < (frontText params).length) := by
  by_cases carries : Carries params
  · exact ⟨_, writtenDocument_carries carries, fun _ => rfl,
      fun _ none => absurd none carries.2.2⟩
  have empty : params.method ≠ .deleteAll → params.propertyDeltaList = [] :=
    fun notAll => by_contra fun some => carries ⟨notGet, notAll, some⟩
  unfold writtenDocument documentHead documentTail documentContent frontText
    stateFields ReplacesBrace
  cases method : params.method with
  | get => exact absurd method notGet
  | deleteAll =>
      refine ⟨_, ?_, fun _ => rfl,
        fun replaces => absurd replaces (by decide)⟩
      simp [Meaning.written, Fields.written, ascii, methodName,
        printedVersion, JsonSyntax.Literal.bytes]
  | replyControlUpdate | replyControlDelete =>
      have none := empty (by rw [method]; decide)
      refine ⟨_, ?_, fun _ => rfl,
        fun replaces => absurd replaces (by decide)⟩
      simp [none, Meaning.written, Fields.written, ascii, methodName,
        printedVersion, JsonSyntax.Literal.bytes]
  | update | updateAndResetVer =>
      have none := empty (by rw [method]; decide)
      refine ⟨ascii "\x7b\"Method\":\"update\",\"State\":\x7b" ++
          ascii "\"Reported\":\x7d\x7d",
        ?_, fun listed => absurd none (listed (by decide)), fun _ _ => ?_⟩
      · simp [none, ascii, printedVersion]
      · simp [none, Meaning.written, Fields.written, ascii, methodName,
          reportedFields]
  | delete =>
      have none := empty (by rw [method]; decide)
      refine ⟨ascii "\x7b\"Method\":\"delete\",\"State\":\x7d\x7d", ?_,
        fun listed => absurd none (listed (by decide)), fun _ _ => ?_⟩
      · simp [none, ascii, printedVersion]
      · simp [none, Meaning.written, Fields.written, ascii, methodName,
          reportedFields]

theorem writtenDocument_get {params : RequestParams} (version : UInt32)
    (get : params.method = .get) :
    writtenDocument params version =
      (documentMeaning params version).written := by
  unfold writtenDocument documentHead documentTail documentContent
    documentMeaning
  rw [get]
  simp [Meaning.written, Fields.written, ascii, methodName]

/-! ## The version -/

/-- The version as the `int` it is taken for. -/
theorem version_toInt (version : UInt32) :
    version.toInt32.toInt = Int.bmod version.toNat (2 ^ 32) :=
  BitVec.toInt_eq_toNat_bmod version.toBitVec

/-- A version without sign bit is printed as it is. -/
theorem printedVersion_small {method : Method} {version : UInt32}
    (notGet : method ≠ .get)
    (small : PrintsVersion method → version.toNat < 2 ^ 31) :
    printedVersion method version = versionText method version := by
  have number : version.toNat < 2 ^ 31 →
      decimal version.toInt32.toInt = decimal version.toNat := fun small => by
    rw [version_toInt, bmod_of_lt small]
  unfold printedVersion versionText
  cases method with
  | updateAndResetVer => exact (by decide : ascii "-1" = decimal (-1))
  | get => exact absurd rfl notGet
  | _ => exact number (small ⟨by decide, by decide⟩)

/-- A version with sign bit is printed behind a minus. -/
theorem printedVersion_large {method : Method} {version : UInt32}
    (prints : PrintsVersion method) (large : 2 ^ 31 ≤ version.toNat) :
    ∃ digits, printedVersion method version = 45 :: digits ∧ digits ≠ [] ∧
      ∀ byte ∈ digits, 48 ≤ byte ∧ byte ≤ 57 := by
  have negative : version.toInt32.toInt =
      -((2 ^ 32 - version.toNat : Nat) : Int) := by
    have word := version.toNat_lt
    rw [version_toInt, Int.bmod_def]
    omega
  have below := version.toNat_lt
  have printed : printedVersion method version =
      decimal version.toInt32.toInt := by
    unfold printedVersion
    cases method with
    | updateAndResetVer => exact absurd rfl prints.2
    | _ => rfl
  rw [printed, negative, decimal_neg (by omega)]
  exact ⟨_, rfl, DecimalDigits.digits_ne_nil _, DecimalDigits.digits_range _⟩

/-- The byte is a digit. -/
def isDigit (byte : UInt8) : Bool := 48 ≤ byte && byte ≤ 57

/-- What stands in front of the last digits of a text. -/
theorem beforeLastDigits (front ending : List UInt8) {digits : List UInt8}
    {byte : UInt8} (some : digits ≠ [])
    (range : ∀ byte ∈ digits, 48 ≤ byte ∧ byte ≤ 57)
    (other : isDigit byte = false)
    (behind : ∀ byte ∈ ending, isDigit byte = false) :
    ((front ++ byte :: (digits ++ ending)).reverse.dropWhile
        fun byte => !isDigit byte).dropWhile isDigit =
      byte :: front.reverse := by
  have whole : (front ++ byte :: (digits ++ ending)).reverse =
      ending.reverse ++ (digits.reverse ++ byte :: front.reverse) := by simp
  have reversed : ∀ byte ∈ digits.reverse, isDigit byte = true :=
    fun byte mem => by
      have inside := range byte (List.mem_reverse.mp mem)
      simp [isDigit, inside]
  obtain ⟨last, others, begins⟩ := List.exists_cons_of_ne_nil
    (mt List.reverse_eq_nil_iff.mp some)
  rw [whole, List.dropWhile_append_of_pos
    (fun byte mem => by simp [behind byte (List.mem_reverse.mp mem)])]
  have stays : (digits.reverse ++ byte :: front.reverse).dropWhile
      (fun byte => !isDigit byte) =
        digits.reverse ++ byte :: front.reverse := by
    have digit := reversed last (by rw [begins]; exact List.mem_cons_self ..)
    rw [begins, List.cons_append, List.dropWhile_cons, if_neg (by simp [digit])]
  rw [stays, List.dropWhile_append_of_pos reversed, List.dropWhile_cons,
    if_neg (by simp [other])]

/-- In a document with a version its number stands behind a colon or a blank,
and only blanks and a brace behind it. -/
theorem exists_version {params : RequestParams} {version : UInt32}
    (notGet : params.method ≠ .get) {before after : JsonSyntax.Blanks}
    {value : JsonSyntax.Value}
    (of : (documentMeaning params version).Of before value after) :
    ∃ front byte ending,
      before.bytes ++ value.text ++ after.bytes =
        front ++ byte :: (versionText params.method version ++ ending) ∧
      isDigit byte = false ∧ byte ≠ 45 ∧
      ∀ byte ∈ ending, isDigit byte = false := by
  have blank : ∀ blanks : JsonSyntax.Blanks, ∀ byte ∈ blanks.bytes,
      isDigit byte = false ∧ byte ≠ 45 := by
    intro blanks byte mem
    rcases blanks.blank byte mem with rfl | rfl | rfl | rfl <;> decide
  have fields : ∃ gap members, value = .object gap members ∧
      (Fields.cons (ascii "Method") (.string (methodName params.method))
        (.cons (ascii "State") (.object (stateFields params))
          (.cons (ascii "Version")
            (.number (versionText params.method version)) .nil))).Of
        members := by
    unfold documentMeaning at of
    cases method : params.method with
    | get => exact absurd method notGet
    | _ =>
        rw [method] at of
        exact of
  obtain ⟨gap, members, rfl, first, others, rfl, -, -, second, others', rfl, -,
    -, third, others'', rfl, -, ⟨number, isNumber, written⟩, none⟩ := fields
  have none : others'' = [] := none
  subst none
  obtain ⟨lead, byte, ends⟩ :
      ∃ lead byte, 58 :: third.afterColon.bytes = lead ++ [byte] :=
    (List.eq_nil_or_concat' _).resolve_left (List.cons_ne_nil _ _)
  have mem : byte ∈ 58 :: third.afterColon.bytes := by
    rw [ends]
    exact List.mem_append_right _ (List.mem_singleton_self _)
  have other : isDigit byte = false ∧ byte ≠ 45 := by
    rcases List.mem_cons.mp mem with rfl | mem
    · decide
    · exact blank _ byte mem
  have last : memberText third = 34 :: (JsonSyntax.rawText third.key ++
      34 :: (third.beforeColon.bytes ++ (lead ++ byte ::
        (versionText params.method version ++ third.after.bytes)))) := by
    rw [JsonSyntax.memberText_eq, isNumber, JsonSyntax.Value.text, written]
    have split := congrArg
      (· ++ (versionText params.method version ++ third.after.bytes)) ends
    simp only [List.cons_append, List.append_assoc, List.nil_append] at split
    rw [split]
  refine ⟨before.bytes ++ 123 :: (gap.bytes ++ (memberText first ++
      44 :: (first.between.bytes ++ (memberText second ++
        44 :: (second.between.bytes ++ 34 :: (JsonSyntax.rawText third.key ++
          34 :: (third.beforeColon.bytes ++ lead))))))), byte,
    third.after.bytes ++ 125 :: after.bytes, ?_, other.1, other.2, ?_⟩
  · rw [JsonSyntax.Value.text, JsonSyntax.membersText, JsonSyntax.membersText,
      JsonSyntax.membersText, last]
    simp
  · intro byte mem
    rcases List.mem_append.mp mem with mem | mem
    · exact (blank _ byte mem).1
    · rcases List.mem_cons.mp mem with rfl | mem
      · decide
      · exact (blank _ byte mem).1

/-! ## Plain documents -/

/-- Every integer is printed as a number. -/
theorem decimal_number (integer : Int) :
    ∃ number : JsonSyntax.Number, number.bytes = decimal integer := by
  obtain ⟨number, printed, -⟩ := decimal_integer integer
  exact ⟨number, printed⟩

theorem meaning_plain_iff (data : PropertyData) :
    data.meaning.Plain ↔ data.Writable := by
  cases data with
  | jfloat printed => exact Iff.rfl
  | jdouble printed => exact Iff.rfl
  | jstring value => exact Iff.rfl
  | jobject value => exact Iff.rfl
  | _ => exact iff_of_true (decimal_number _) trivial

theorem reportedFields_plain_iff (method : Method)
    (properties : List DeviceProperty) :
    (reportedFields method properties).Plain ↔
      ∀ property ∈ properties,
        (∀ byte ∈ property.key.bytes, PlainByte byte) ∧
          ∀ data ∈ contentData method property, data.Writable := by
  induction properties with
  | nil => exact iff_of_true trivial (List.forall_mem_nil _)
  | cons property properties inductionHypothesis =>
      have value : (((contentData method property).map
          PropertyData.meaning).getD .null).Plain ↔
            ∀ data ∈ contentData method property, data.Writable := by
        cases contentData method property with
        | none => exact iff_of_true trivial nofun
        | some data => simpa using meaning_plain_iff data
      rw [List.forall_mem_cons, ← inductionHypothesis, ← value, and_assoc]
      rfl

/-- The fields of a state need no escape where its properties do not. -/
theorem stateFields_plain_iff {params : RequestParams}
    (notGet : params.method ≠ .get) :
    (stateFields params).Plain ↔
      (Carries params → ∀ property ∈ params.propertyDeltaList,
        (∀ byte ∈ property.key.bytes, PlainByte byte) ∧
          ∀ data ∈ contentData params.method property, data.Writable) := by
  have name : ∀ byte ∈ ascii "Reported", PlainByte byte := by decide
  have desired : (Fields.cons (ascii "Desired") .null .nil).Plain :=
    ⟨by decide, trivial, trivial⟩
  have reported := reportedFields_plain_iff params.method
    params.propertyDeltaList.reverse
  simp only [List.mem_reverse] at reported
  unfold stateFields Carries
  cases method : params.method with
  | get => exact absurd method notGet
  | deleteAll =>
      exact iff_of_true ⟨name, trivial, trivial⟩ fun carries =>
        absurd rfl carries.2.1
  | update | updateAndResetVer | delete =>
      rw [method] at reported
      constructor
      · exact fun plain _ => reported.mp plain.2.1
      · intro each
        refine ⟨name, reported.mpr fun property mem => ?_, trivial⟩
        exact each ⟨by decide, by decide, List.ne_nil_of_mem mem⟩ property mem
  | replyControlUpdate | replyControlDelete =>
      rw [method] at reported
      dsimp only
      split
      · rename_i none
        exact iff_of_true desired fun carries => absurd none carries.2.2
      · rename_i some
        constructor
        · exact fun plain _ => reported.mp plain.2.1
        · intro each
          exact ⟨name, reported.mpr (each ⟨by decide, by decide, some⟩),
            desired⟩

theorem documentMeaning_plain_iff {params : RequestParams}
    {version : UInt32} (notGet : params.method ≠ .get) :
    (documentMeaning params version).Plain ↔ (stateFields params).Plain := by
  have names : (∀ byte ∈ ascii "Method", PlainByte byte) ∧
      (∀ byte ∈ ascii "State", PlainByte byte) ∧
      ∀ byte ∈ ascii "Version", PlainByte byte := by decide
  have value : ∀ byte ∈ methodName params.method, PlainByte byte := by
    cases params.method <;> decide
  have number : ∃ number : JsonSyntax.Number,
      number.bytes = versionText params.method version := by
    unfold versionText
    split
    · exact decimal_number _
    · exact decimal_number _
  have whole : (documentMeaning params version).Plain ↔
      (∀ byte ∈ ascii "Method", PlainByte byte) ∧
        (∀ byte ∈ methodName params.method, PlainByte byte) ∧
        (∀ byte ∈ ascii "State", PlainByte byte) ∧
        (stateFields params).Plain ∧
        (∀ byte ∈ ascii "Version", PlainByte byte) ∧
        (∃ number : JsonSyntax.Number,
          number.bytes = versionText params.method version) ∧ True := by
    unfold documentMeaning
    cases method : params.method with
    | get => exact absurd method notGet
    | _ => exact Iff.rfl
  rw [whole]
  exact ⟨fun plain => plain.2.2.2.1,
    fun plain => ⟨names.1, value, names.2.1, plain, names.2.2, number,
      trivial⟩⟩

/-! ## Well-formed documents -/

/-- A document of a meaning can be read from what is written without escapes
exactly where nothing needs one. -/
theorem meansRequest_written_iff {params : RequestParams} {version : UInt32} :
    MeansRequest (documentMeaning params version).written params version ↔
      (documentMeaning params version).Plain := by
  rw [← JsonSyntax.written_of_iff]
  constructor
  · rintro ⟨tree, text, of⟩
    exact ⟨tree.before, tree.value, tree.after, of, text⟩
  · rintro ⟨before, value, after, of, text⟩
    have object : ∃ gap members, value = .object gap members := by
      unfold documentMeaning at of
      split at of
      · exact ⟨_, _, of.choose_spec.choose_spec.1⟩
      · exact ⟨_, _, of.choose_spec.choose_spec.1⟩
    obtain ⟨gap, members, rfl⟩ := object
    exact ⟨⟨before, gap, members, after⟩, text, of⟩

/-- The written document is the object the method calls for exactly if it can be
written. -/
theorem writtenDocument_meansRequest_iff (params : RequestParams)
    (version : UInt32) :
    MeansRequest (writtenDocument params version) params version ↔
      Writable params version := by
  by_cases get : params.method = .get
  · have plain : (documentMeaning params version).Plain := by
      unfold documentMeaning
      rw [get]
      have name : ∀ byte ∈ methodName .get, PlainByte byte := by decide
      exact ⟨by decide, name, trivial⟩
    rw [writtenDocument_get version get, meansRequest_written_iff]
    refine iff_of_true plain ⟨fun prints => absurd get prints.1, ?_,
      fun carries => absurd get carries.1, fun carries => absurd get carries.1⟩
    rw [get]
    exact nofun
  obtain ⟨front, text, whole, lacks⟩ := writtenDocument_front version get
  by_cases small : PrintsVersion params.method → version.toNat < 2 ^ 31
  · rw [printedVersion_small get small] at text
    by_cases listed : ReplacesBrace params.method →
        params.propertyDeltaList ≠ []
    · rw [text, whole listed, ← documentMeaning_written get,
        meansRequest_written_iff, documentMeaning_plain_iff get,
        stateFields_plain_iff get]
      constructor
      · exact fun each => ⟨small, listed,
          fun carries property mem => (each carries property mem).1,
          fun carries property mem => (each carries property mem).2⟩
      · exact fun writable carries property mem =>
          ⟨writable.keys carries property mem,
            writable.values carries property mem⟩
    · refine iff_of_false ?_ fun writable => listed writable.listed
      rintro ⟨tree, same, of⟩
      obtain ⟨replaces, empty⟩ := Classical.not_imp.mp listed
      have shorter := lacks replaces (not_not.mp empty)
      have longer := of.length.1
      have same : tree.before.bytes ++ tree.value.text ++ tree.after.bytes =
        writtenDocument params version := same
      rw [same, text, documentMeaning_written get] at longer
      simp only [List.length_append] at longer
      omega
  · refine iff_of_false ?_ fun writable => small writable.version
    rintro ⟨tree, same, of⟩
    obtain ⟨prints, large⟩ := Classical.not_imp.mp small
    obtain ⟨digits, printed, nonempty, range⟩ :=
      printedVersion_large prints (Nat.not_lt.mp large)
    obtain ⟨before, byte, ending, read, other, notMinus, behind⟩ :=
      exists_version get of
    have number : versionText params.method version =
        DecimalDigits.digits version.toNat := by
      unfold versionText
      split
      · rename_i resets
        exact absurd resets prints.2
      · exact decimal_natCast _
    have minus := beforeLastDigits (front ++ ascii ",\"Version\":") [125]
      nonempty range (by decide : isDigit 45 = false) (by decide)
    have found := beforeLastDigits before ending
      (DecimalDigits.digits_ne_nil version.toNat)
      (DecimalDigits.digits_range version.toNat) other behind
    have same : tree.before.bytes ++ tree.value.text ++ tree.after.bytes =
      writtenDocument params version := same
    have texts :
        before ++ byte :: (DecimalDigits.digits version.toNat ++ ending) =
          front ++ ascii ",\"Version\":" ++ 45 :: (digits ++ [125]) := by
      rw [← number, ← read, same, text, printed]
      simp
    rw [texts, minus] at found
    exact notMinus (List.cons.inj found).1.symm

/-- In a buffer with room for it a document that is built is the JSON object the
method calls for exactly if it can be written. -/
theorem document_meansRequest_iff {pJsonDoc document : List UInt8}
    {sizeOfBuffer : Nat} {params : RequestParams} {version : UInt32}
    {iteratorAllocated : Bool} (word : sizeOfBuffer < 2 ^ 64)
    (roomy : Roomy sizeOfBuffer params version)
    (built : buildDocument (some pJsonDoc) sizeOfBuffer params version
      iteratorAllocated = .ok document) :
    MeansRequest document params version ↔ Writable params version := by
  rw [buildDocument_written word roomy built]
  exact writtenDocument_meansRequest_iff params version

/-- An update of the property `a` can be written. -/
theorem shortUpdate_meansRequest :
    let params := stringUpdate ⟨[120], by decide⟩
    400 < 2 ^ 64 ∧ Roomy 400 params 7 ∧
      buildDocument (some []) 400 params 7 true =
        .ok (writtenDocument params 7) ∧
      MeansRequest (writtenDocument params 7) params 7 := by
  have roomy : Roomy 400 (stringUpdate ⟨[120], by decide⟩) 7 :=
    roomy_of_twice (by decide) (by decide +kernel)
  have built : buildDocument (some []) 400 (stringUpdate ⟨[120], by decide⟩) 7
      true = .ok _ := buildDocument_of_roomy (by decide) roomy fun _ => rfl
  have writable : Writable (stringUpdate ⟨[120], by decide⟩) 7 := by
    refine ⟨fun _ => by decide, fun _ => by decide, fun _ => ?_, fun _ => ?_⟩
    · exact List.forall_mem_singleton.mpr (by decide)
    · refine List.forall_mem_singleton.mpr fun data same => ?_
      obtain rfl := Option.some.inj (Option.mem_def.mp same)
      exact (by decide : ∀ byte ∈ [120], PlainByte byte)
  exact ⟨by decide, roomy, built,
    (document_meansRequest_iff (by decide) roomy built).mpr writable⟩

/-- An update without properties. -/
def emptyUpdate : RequestParams where
  method := .update
  propertyDeltaList := []
  timeoutSec := 5
  requestCallback := none
  userContext := 0

/-- An update without properties lacks the brace in front of its end. -/
theorem emptyUpdate_malformed :
    ¬∀ (pJsonDoc document : List UInt8) (sizeOfBuffer : Nat)
      (params : RequestParams) (version : UInt32) (iteratorAllocated : Bool),
      sizeOfBuffer < 2 ^ 64 → Roomy sizeOfBuffer params version →
        buildDocument (some pJsonDoc) sizeOfBuffer params version
            iteratorAllocated = .ok document →
          MeansRequest document params version := by
  intro all
  have roomy : Roomy 400 emptyUpdate 7 :=
    roomy_of_twice (by decide) (by decide +kernel)
  have means := all [] _ 400 emptyUpdate 7 true (by decide) roomy
    (buildDocument_of_roomy (by decide) roomy fun _ => rfl)
  have writable := (writtenDocument_meansRequest_iff emptyUpdate 7).mp means
  exact writable.listed (.inl rfl) rfl

end Shadow
end UIoT
