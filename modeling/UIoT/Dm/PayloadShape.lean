import UIoT.Dm.PayloadBounds
import UIoT.Library.JsonJoined
import UIoT.Library.JsonMeaning
import UIoT.Shadow.Values

/-!
# Payloads as objects

What is posted of a list of properties, put in braces, is the object of these
properties: a property is rendered as its value or as an object that has the
value for its only member, a struct as an object, an array as an array.
-/

namespace UIoT
namespace Dm

open BoundedPrinting JsonSyntax

/-! ## Texts without arrays -/

/-- The text of a node. -/
def DmNode.text (dmNode : DmNode) (valueKey : Bool) : List UInt8 :=
  nodeText dmNode.key valueKey (dmNode.value.printed.getD [])

/-- The texts of elements in a format. -/
def Format.text {α : Type} (format : Format) (text : α → List UInt8)
    (elements : List α) : List UInt8 :=
  format.opening ++ joined text elements ++ format.closing

/-- The text of a struct. -/
def DmTypeStruct.text (dmStruct : DmTypeStruct) (valueKey : Bool) :
    List UInt8 :=
  (structFormat dmStruct.key valueKey).text (DmNode.text · false)
    dmStruct.value

/-- The text of a property. -/
def DmProperty.text (valueKey : Bool) (property : DmProperty) : List UInt8 :=
  match property.value with
  | .node dmNode => dmNode.text valueKey
  | .struct dmStruct => dmStruct.text valueKey
  | .arrayBase dmArrayBase =>
      (arrayFormat dmArrayBase.key valueKey).text (DmNode.text · false)
        dmArrayBase.value
  | .arrayStruct dmArrayStruct =>
      (arrayFormat dmArrayStruct.key valueKey).text (DmTypeStruct.text · false)
        dmArrayStruct.value
  | .illegal => []

/-! ## Renderings -/

/-- The value is the one of a node. -/
def RendersBase : DmBaseValue → Value → Prop
  | .int int32Value, value =>
      ∃ number : Number, value = .number number ∧
        number.value = int32Value.toInt
  | .float printed, value | .double printed, value =>
      ∃ number : Number, value = .number number ∧
        number.bytes = printed.bytes
  | .bool boolValue, value =>
      ∃ number : Number, value = .number number ∧
        number.value = if boolValue then 1 else 0
  | .enum enumValue, value =>
      ∃ number : Number, value = .number number ∧
        number.value = enumValue.toInt
  | .string stringValue, value =>
      ∃ items, value = .string items ∧
        stringValue.map CString.bytes = some (JsonSyntax.stringValue items)
  | .date dateValue, value =>
      ∃ number : Number, value = .number number ∧
        number.value = dateValue.toInt
  | .illegal, _ => False

/-- The member has this key. -/
def Keyed (key : Option CString) (member : Member Value) : Prop :=
  key.map CString.bytes = some (stringValue member.key)

/-- The value is the object of these nodes, in their order. -/
def RendersStruct (dmStruct : DmTypeStruct) (value : Value) : Prop :=
  ∃ gap members, value = .object gap members ∧
    List.Forall₂
      (fun dmNode member =>
        Keyed dmNode.key member ∧ RendersBase dmNode.value member.value)
      dmStruct.value members

/-- The value is the one of a property. -/
def RendersValue : DmPropertyValue → Value → Prop
  | .node dmNode, value => RendersBase dmNode.value value
  | .struct dmStruct, value => RendersStruct dmStruct value
  | .arrayBase dmArrayBase, value =>
      ∃ gap elements, value = .array gap elements ∧
        List.Forall₂
          (fun dmNode element => RendersBase dmNode.value element.value)
          dmArrayBase.value elements
  | .arrayStruct dmArrayStruct, value =>
      ∃ gap elements, value = .array gap elements ∧
        List.Forall₂
          (fun dmStruct element => RendersStruct dmStruct element.value)
          dmArrayStruct.value elements
  | .illegal, _ => False

/-- The value itself, or an object with the value as its only member. -/
def Wrapped (valueKey : Bool) (renders : Value → Prop) (value : Value) : Prop :=
  if valueKey then
    ∃ gap member, value = .object gap [member] ∧
      stringValue member.key = ascii "Value" ∧ renders member.value
  else renders value

/-- The member is the one of a property. -/
def RendersProperty (valueKey : Bool) (property : DmProperty)
    (member : Member Value) : Prop :=
  (∃ key, property.value.key = some key ∧ Keyed key member) ∧
    Wrapped valueKey (RendersValue property.value) member.value

/-! ## Trees -/

/-- The string needs no escape. -/
def PlainText (text : Option CString) : Prop :=
  ∃ plain, text = some plain ∧ ∀ byte ∈ plain.bytes, PlainByte byte

/-- What `%f` prints of a finite number: a sign if it is negative, an integer
and six decimals. -/
def FiniteText (printed : CString) : Prop :=
  ∃ (negative : Bool) (whole fraction : Digits),
    (whole.bytes = [48] ∨ whole.bytes.head? ≠ some 48) ∧
      fraction.bytes.length = 6 ∧
      printed.bytes = (if negative then [45] else []) ++
        (whole.bytes ++ 46 :: fraction.bytes)

/-- A value that can be printed. -/
def DmBaseValue.Plain : DmBaseValue → Prop
  | float printed | double printed => FiniteText printed
  | string stringValue => PlainText stringValue
  | illegal => False
  | _ => True

/-- A node with a key. -/
structure KeyedNode (dmNode : DmNode) : Prop where
  key : PlainText dmNode.key
  value : dmNode.value.Plain

/-- A node without a key. -/
structure KeylessNode (dmNode : DmNode) : Prop where
  key : dmNode.key = none
  value : dmNode.value.Plain

/-- A struct has one or more nodes with keys. -/
structure StructShape (dmStruct : DmTypeStruct) : Prop where
  nonempty : dmStruct.value ≠ []
  keyed : ∀ dmNode ∈ dmStruct.value, KeyedNode dmNode

/-- A property with a key: a node, a struct, or an array of one or more elements
without keys. -/
def DmPropertyValue.Shape : DmPropertyValue → Prop
  | node dmNode => KeyedNode dmNode
  | struct dmStruct => PlainText dmStruct.key ∧ StructShape dmStruct
  | arrayBase dmArrayBase =>
      PlainText dmArrayBase.key ∧ dmArrayBase.value ≠ [] ∧
        ∀ dmNode ∈ dmArrayBase.value, KeylessNode dmNode
  | arrayStruct dmArrayStruct =>
      PlainText dmArrayStruct.key ∧ dmArrayStruct.value ≠ [] ∧
        ∀ dmStruct ∈ dmArrayStruct.value,
          dmStruct.key = none ∧ StructShape dmStruct
  | illegal => False

/-- All arrays for a property can be allocated. -/
def PropertyMemory.Allocated (memory : PropertyMemory) : Prop :=
  memory.element.isSome ∧ ∀ loop, (memory.node loop).isSome

/-! ## Accounts of short texts -/

/-- The text is accepted as a whole, and everything in front of it fits. -/
structure Leaves (account : Account) (text : List UInt8) : Prop where
  frontsFit : account.frontsFit
  left : account.left = some text

theorem kept_of_short {text : List UInt8}
    (short : text.length < dmMsgReportBufLen) : kept text = text :=
  List.take_of_length_le (Nat.le_pred_of_lt short)

theorem once_leaves {text : List UInt8} {limit : Nat}
    (short : text.length < dmMsgReportBufLen)
    (le : dmMsgReportBufLen ≤ limit) : Leaves (.once limit text) text where
  frontsFit := trivial
  left := by
    rw [Account.once, if_pos (Nat.lt_of_lt_of_le short le), kept_of_short short]

theorem nodeAccount_leaves {dmNode : DmNode} {valueKey : Bool}
    (printed : dmNode.value.printed.isSome)
    (short : (dmNode.text valueKey).length < dmMsgReportBufLen) :
    Leaves (nodeAccount dmNode valueKey) (dmNode.text valueKey) := by
  obtain ⟨value, found⟩ := Option.isSome_iff_exists.mp printed
  have text : dmNode.text valueKey =
      nodeText dmNode.key valueKey value := by
    rw [DmNode.text, found]
    rfl
  rw [text] at short ⊢
  unfold nodeAccount
  rw [found]
  exact once_leaves short (Nat.le_refl _)

section Elements

variable {α : Type} {format : Format}
  {account : Nat → α → List UInt8 → Account} {text : α → List UInt8}

/-- The texts behind the first one of several, as their pieces. -/
def behindFirst (format : Format) (text : α → List UInt8) :
    List α → List UInt8
  | [] => []
  | next :: elements =>
      format.piece false elements.isEmpty (text next) ++
        behindFirst format text elements

theorem ascii_comma : ascii ", " = [44, 32] := by decide +kernel

/-- The last piece closes what the first one has opened. -/
theorem behindFirst_eq {elements : List α} (nonempty : elements ≠ []) :
    behindFirst format text elements =
      elements.flatMap (fun next => 44 :: 32 :: text next) ++
        format.closing := by
  induction elements with
  | nil => exact absurd rfl nonempty
  | cons next elements inductionHypothesis =>
      rw [behindFirst, Format.piece, if_neg Bool.false_ne_true, ascii_comma,
        List.flatMap_cons]
      cases elements with
      | nil =>
          rw [List.isEmpty_nil, if_pos rfl, behindFirst]
          simp
      | cons second elements =>
          rw [List.isEmpty_cons, if_neg Bool.false_ne_true,
            inductionHypothesis (List.cons_ne_nil _ _)]
          simp

/-- The rest of a loop leaves the text with all pieces behind it. -/
theorem restAccount_leaves {elements : List α}
    (leaves : ∀ loop, ∀ element ∈ elements, ∀ payload,
      (text element).length < dmMsgReportBufLen →
        Leaves (account loop element payload) (text element))
    (loop : Nat) (element front : List UInt8)
    (short : (front ++ behindFirst format text elements).length <
      dmMsgReportBufLen) :
    Leaves (restAccount format account (loop + 1) elements element front)
      (front ++ behindFirst format text elements) := by
  induction elements generalizing loop element front with
  | nil =>
      rw [behindFirst, List.append_nil] at short ⊢
      refine ⟨trivial, ?_⟩
      rw [restAccount, if_pos (Nat.le_of_lt short), kept_of_short short]
  | cons next elements inductionHypothesis =>
      rw [behindFirst, ← List.append_assoc] at short ⊢
      have piece_le : (text next).length ≤
          (format.piece false elements.isEmpty (text next)).length := by
        unfold Format.piece
        rw [if_neg Bool.false_ne_true]
        split <;> simp only [List.length_append] <;> omega
      have lengths := short
      rw [List.length_append, List.length_append] at lengths
      have this := leaves (loop + 1) next List.mem_cons_self element (by omega)
      have later := inductionHypothesis
        (fun loop other mem => leaves loop other (List.mem_cons_of_mem _ mem))
        (loop + 1) (text next) _ short
      rw [restAccount, this.left]
      exact ⟨⟨this.frontsFit, by omega, later.frontsFit⟩, later.left⟩

/-- Elements in a loop leave their text if something closes it: where there is
only one, nothing has to. -/
theorem joinedAccount_leaves {elements : List α}
    (leaves : ∀ loop, ∀ element ∈ elements, ∀ payload,
      (text element).length < dmMsgReportBufLen →
        Leaves (account loop element payload) (text element))
    (nonempty : elements ≠ [])
    (closes : elements.length = 1 → format.closing = [])
    (element payload : List UInt8)
    (short : (format.text text elements).length < dmMsgReportBufLen) :
    Leaves (joinedAccount format account elements element payload)
      (format.text text elements) := by
  cases elements with
  | nil => exact absurd rfl nonempty
  | cons first rest =>
      have whole : format.text text (first :: rest) =
          format.opening ++ text first ++ behindFirst format text rest := by
        rw [Format.text, joined]
        cases rest with
        | nil =>
            rw [closes rfl, behindFirst]
            simp
        | cons second rest =>
            rw [behindFirst_eq (List.cons_ne_nil _ _)]
            simp
      rw [whole] at short ⊢
      have lengths := short
      rw [List.length_append, List.length_append] at lengths
      have this := leaves 0 first List.mem_cons_self element (by omega)
      have later := restAccount_leaves
        (fun loop other mem => leaves loop other (List.mem_cons_of_mem _ mem))
        0 (text first) (format.opening ++ text first) short
      have begins : joinedAccount format account (first :: rest) element
          payload = restAccount format account 0 (first :: rest) element [] :=
        rfl
      rw [begins, restAccount, this.left]
      exact ⟨⟨this.frontsFit, Nat.zero_le _, later.frontsFit⟩, later.left⟩

/-- The elements of a struct or an array leave their text. -/
theorem elementsAccount_leaves {elements : List α}
    (leaves : ∀ loop, ∀ element ∈ elements, ∀ payload,
      (text element).length < dmMsgReportBufLen →
        Leaves (account loop element payload) (text element))
    (nonempty : elements ≠ []) {elementPayload : Option Buffer}
    (allocated : elementPayload.isSome) (payload : List UInt8)
    (short : (format.text text elements).length < dmMsgReportBufLen) :
    Leaves (elementsAccount format account elements elementPayload payload)
      (format.text text elements) := by
  obtain ⟨elementPayload, rfl⟩ := Option.isSome_iff_exists.mp allocated
  match elements, nonempty with
  | [only], _ =>
      have whole : format.text text [only] =
          format.opening ++ text only ++ format.closing := by
        rw [Format.text, joined, List.flatMap_nil, List.append_nil]
      rw [whole] at short ⊢
      have lengths := short
      rw [List.length_append, List.length_append] at lengths
      have this := leaves 0 only List.mem_cons_self elementPayload.text
        (by omega)
      have once := once_leaves short (by decide : dmMsgReportBufLen ≤ 2 ^ 31)
      rw [elementsAccount, singleAccount, this.left]
      exact ⟨this.frontsFit, once.left⟩
  | first :: second :: rest, nonempty =>
      exact joinedAccount_leaves leaves nonempty (fun one => by simp at one)
        elementPayload.text payload short

end Elements

/-! ## Accounts of trees -/

theorem printed_of_plain {value : DmBaseValue} (plain : value.Plain) :
    value.printed.isSome := by
  cases value with
  | illegal => exact plain.elim
  | _ => rfl

theorem structAccount_leaves {dmStruct : DmTypeStruct} {valueKey : Bool}
    (shape : StructShape dmStruct) {nodePayload : Option Buffer}
    (allocated : nodePayload.isSome) (payload : List UInt8)
    (short : (dmStruct.text valueKey).length < dmMsgReportBufLen) :
    Leaves (structAccount dmStruct valueKey nodePayload payload)
      (dmStruct.text valueKey) :=
  elementsAccount_leaves
    (fun _ dmNode mem _ => nodeAccount_leaves
      (printed_of_plain (shape.keyed dmNode mem).value))
    shape.nonempty allocated payload short

theorem postAccount_leaves {property : DmProperty} {valueKey : Bool}
    (shape : property.value.Shape) {memory : PropertyMemory}
    (allocated : memory.Allocated) (payload : List UInt8)
    (short : (property.text valueKey).length < dmMsgReportBufLen) :
    Leaves (postAccount property valueKey memory payload)
      (property.text valueKey) := by
  unfold postAccount
  unfold DmProperty.text at short ⊢
  cases value : property.value with
  | node dmNode =>
      rw [value] at shape short
      exact nodeAccount_leaves (printed_of_plain shape.value) short
  | struct dmStruct =>
      rw [value] at shape short
      exact structAccount_leaves shape.2 allocated.1 payload short
  | arrayBase dmArrayBase =>
      rw [value] at shape short
      obtain ⟨-, nonempty, keyless⟩ := shape
      exact elementsAccount_leaves
        (fun _ dmNode mem _ => nodeAccount_leaves
          (printed_of_plain (keyless dmNode mem).value))
        nonempty allocated.1 payload short
  | arrayStruct dmArrayStruct =>
      rw [value] at shape short
      obtain ⟨-, nonempty, keyless⟩ := shape
      exact elementsAccount_leaves
        (fun loop dmStruct mem payload => structAccount_leaves
          (keyless dmStruct mem).2 (allocated.2 loop) payload)
        nonempty allocated.1 payload short
  | illegal =>
      rw [value] at shape
      exact shape.elim

/-- Properties whose text is shorter than the arrays are generated in whole. -/
theorem propertiesPayload_text {properties : List DmProperty}
    (nonempty : properties ≠ [])
    (shapes : ∀ property ∈ properties, property.value.Shape) (valueKey : Bool)
    (payload : Buffer) {memory : Nat → PropertyMemory}
    (allocated : ∀ loop, (memory loop).Allocated) (propertiesPayload : Buffer)
    (short : (joined (DmProperty.text valueKey) properties).length <
      dmMsgReportBufLen) :
    let generated := dmGenPropertiesPayload (some properties) .propertyPost
      valueKey (some payload) memory (some propertiesPayload)
    generated.ret = .successRet ∧
      generated.payload = joined (DmProperty.text valueKey) properties := by
  intro generated
  have whole : (Format.mk [] []).text (DmProperty.text valueKey) properties =
      joined (DmProperty.text valueKey) properties := by
    rw [Format.text, List.nil_append, List.append_nil]
  have leaves : Leaves
      (propertiesAccount (some properties) .propertyPost valueKey
        (some payload) memory (some propertiesPayload))
      ((Format.mk [] []).text (DmProperty.text valueKey) properties) :=
    joinedAccount_leaves
      (fun loop property mem _ => postAccount_leaves (shapes property mem)
        (allocated loop) _)
      nonempty (fun _ => rfl) payload.text propertiesPayload.text
      (whole ▸ short)
  have meets : Meets generated _ := dmGenPropertiesPayload_meets ..
  obtain ⟨same, -, -⟩ := meets.left leaves.frontsFit _ leaves.left
  refine ⟨(meets.accepted_iff leaves.frontsFit).mpr ?_, same.trans whole⟩
  rw [leaves.left]
  rfl

/-! ## Rendering trees -/

theorem exists_finite {printed : CString} (finite : FiniteText printed) :
    ∃ number : Number, number.bytes = printed.bytes := by
  obtain ⟨negative, whole, fraction, leading, -, text⟩ := finite
  refine ⟨⟨negative, whole, leading, some fraction, none⟩, ?_⟩
  rw [text]
  simp [Number.bytes, Number.mantissa, fractionText, exponentText]

/-- A value is printed as what it renders. -/
theorem exists_base {value : DmBaseValue} (plain : value.Plain) :
    ∃ rendered, RendersBase value rendered ∧
      rendered.text = value.printed.getD [] := by
  cases value with
  | int int32Value =>
      obtain ⟨number, text, stands⟩ :=
        Shadow.decimal_integer int32Value.toInt
      exact ⟨.number number, ⟨number, rfl, stands⟩, text⟩
  | float printed =>
      obtain ⟨number, text⟩ := exists_finite plain
      exact ⟨.number number, ⟨number, rfl, text⟩, text⟩
  | double printed =>
      obtain ⟨number, text⟩ := exists_finite plain
      exact ⟨.number number, ⟨number, rfl, text⟩, text⟩
  | bool boolValue =>
      obtain ⟨number, text, stands⟩ :=
        Shadow.decimal_integer (if boolValue then 1 else 0)
      refine ⟨.number number, ⟨number, rfl, ?_⟩, text⟩
      rw [stands]
      cases boolValue <;> rfl
  | enum enumValue =>
      obtain ⟨number, text, stands⟩ := Shadow.decimal_integer enumValue.toInt
      exact ⟨.number number, ⟨number, rfl, stands⟩, text⟩
  | string stringValue =>
      obtain ⟨text, rfl, plain⟩ := plain
      obtain ⟨items, raw, stands⟩ := exists_items plain
      refine ⟨.string items, ⟨items, rfl, congrArg some stands.symm⟩, ?_⟩
      have quote : ascii "\"" = [34] := by decide +kernel
      rw [Value.text, raw, DmBaseValue.printed, Option.getD_some, quote,
        percentS]
      rfl
  | date dateValue =>
      obtain ⟨number, text, stands⟩ := Shadow.decimal_integer dateValue.toInt
      exact ⟨.number number, ⟨number, rfl, stands⟩, text⟩
  | illegal => exact plain.elim

/-- What is printed with a key is a member, and with a value key its value is
wrapped. -/
theorem exists_member {key : Option CString} (plain : PlainText key)
    (valueKey : Bool) {renders : Value → Prop} {value : Value}
    (rendered : renders value) :
    ∃ member, Keyed key member ∧ Wrapped valueKey renders member.value ∧
      memberText member = nodeText key valueKey value.text ∧
      member.between = .space := by
  obtain ⟨name, rfl, bytes⟩ := plain
  obtain ⟨items, raw, stands⟩ := exists_items bytes
  have quote : ascii "\"" = [34] := by decide +kernel
  cases valueKey with
  | false =>
      have behind : ascii "\": " = [34, 58, 32] := by decide +kernel
      refine ⟨.spaced items value, congrArg some stands.symm, rendered, ?_,
        rfl⟩
      rw [memberText_spaced, raw]
      simp [nodeText, opening, closing, quote, behind]
  | true =>
      have plain_value : ∀ byte ∈ ascii "Value", PlainByte byte := by
        decide +kernel
      obtain ⟨value_items, value_raw, value_stands⟩ := exists_items plain_value
      have behind : ascii "\": \x7b\"Value\": " =
          [34, 58, 32, 123, 34] ++ ascii "Value" ++ [34, 58, 32] := by
        decide +kernel
      have brace : ascii "\x7d" = [125] := by decide +kernel
      refine ⟨.spaced items (.object .none [.spaced value_items value]),
        congrArg some stands.symm,
        ⟨.none, _, rfl, value_stands, rendered⟩, ?_, rfl⟩
      rw [memberText_spaced, Value.text, membersText, memberText_spaced, raw,
        value_raw]
      simp [nodeText, opening, closing, quote, behind, brace, Blanks.none]

/-- A node with a key is a member of an object. -/
theorem exists_node {dmNode : DmNode} (keyed : KeyedNode dmNode)
    (valueKey : Bool) :
    ∃ member, Keyed dmNode.key member ∧
      Wrapped valueKey (RendersBase dmNode.value) member.value ∧
      memberText member = dmNode.text valueKey ∧ member.between = .space := by
  obtain ⟨value, renders, text⟩ := exists_base keyed.value
  obtain ⟨member, named, wrapped, written, between⟩ :=
    exists_member keyed.key valueKey renders
  rw [text] at written
  exact ⟨member, named, wrapped, written, between⟩

/-- The nodes of a struct are an object. -/
theorem exists_struct {dmStruct : DmTypeStruct} (shape : StructShape dmStruct) :
    ∃ value, RendersStruct dmStruct value ∧
      value.text =
        ascii "\x7b" ++ joined (DmNode.text · false) dmStruct.value ++
          ascii "\x7d" := by
  have each : ∀ dmNode ∈ dmStruct.value, ∃ member,
      (Keyed dmNode.key member ∧ RendersBase dmNode.value member.value) ∧
        memberText member = dmNode.text false ∧ member.between = .space := by
    intro dmNode mem
    obtain ⟨member, named, wrapped, written, between⟩ :=
      exists_node (shape.keyed dmNode mem) false
    exact ⟨member, ⟨named, wrapped⟩, written, between⟩
  obtain ⟨members, all, text⟩ := exists_members each
  have braces : ascii "\x7b" = [123] ∧ ascii "\x7d" = [125] := by
    decide +kernel
  refine ⟨.object .none members, ⟨.none, members, rfl, all⟩, ?_⟩
  rw [Value.text, text, braces.1, braces.2]
  simp [Blanks.none]

/-- Elements that are values are an array. -/
theorem exists_array {α : Type} {renders : α → Value → Prop}
    {text : α → List UInt8} {items : List α}
    (each : ∀ item ∈ items, ∃ value, renders item value ∧
      value.text = text item) :
    ∃ gap elements,
      List.Forall₂ (fun item (element : Element Value) =>
        renders item element.value) items elements ∧
      (Value.array gap elements).text =
        ascii "[" ++ joined text items ++ ascii "]" := by
  have spaced : ∀ item ∈ items, ∃ element : Element Value,
      renders item element.value ∧ elementText element = text item ∧
        element.between = .space := by
    intro item mem
    obtain ⟨value, rendered, written⟩ := each item mem
    refine ⟨.spaced value, rendered, ?_, rfl⟩
    rw [elementText_spaced, written]
  obtain ⟨elements, all, written⟩ := exists_elements spaced
  have brackets : ascii "[" = [91] ∧ ascii "]" = [93] := by decide +kernel
  refine ⟨.none, elements, all, ?_⟩
  rw [Value.text, written, brackets.1, brackets.2]
  simp [Blanks.none]

/-! ## Properties as members -/

/-- The format of a struct with a key prints it as a node. -/
theorem structFormat_text {α : Type} (key : CString) (valueKey : Bool)
    (text : α → List UInt8) (elements : List α) :
    (structFormat (some key) valueKey).text text elements =
      nodeText (some key) valueKey
        (ascii "\x7b" ++ joined text elements ++ ascii "\x7d") := by
  simp only [structFormat, Format.text, nodeText, List.append_assoc]

/-- So does the format of an array. -/
theorem arrayFormat_text {α : Type} (key : CString) (valueKey : Bool)
    (text : α → List UInt8) (elements : List α) :
    (arrayFormat (some key) valueKey).text text elements =
      nodeText (some key) valueKey
        (ascii "[" ++ joined text elements ++ ascii "]") := by
  simp only [arrayFormat, percentS, Format.text, nodeText, List.append_assoc]

theorem exists_keyless {dmNode : DmNode} (keyless : KeylessNode dmNode) :
    ∃ value, RendersBase dmNode.value value ∧
      value.text = dmNode.text false := by
  obtain ⟨value, renders, text⟩ := exists_base keyless.value
  refine ⟨value, renders, ?_⟩
  rw [text, DmNode.text, keyless.key]
  rfl

theorem exists_keylessStruct {dmStruct : DmTypeStruct}
    (keyless : dmStruct.key = none) (shape : StructShape dmStruct) :
    ∃ value, RendersStruct dmStruct value ∧
      value.text = dmStruct.text false := by
  obtain ⟨value, renders, text⟩ := exists_struct shape
  refine ⟨value, renders, ?_⟩
  rw [text, DmTypeStruct.text, keyless]
  rfl

/-- The text of a property is the member that renders it. -/
theorem exists_property {property : DmProperty}
    (shape : property.value.Shape) (valueKey : Bool) :
    ∃ member, RendersProperty valueKey property member ∧
      memberText member = property.text valueKey ∧
      member.between = .space := by
  unfold RendersProperty DmProperty.text
  cases value : property.value with
  | node dmNode =>
      rw [value] at shape
      obtain ⟨member, named, wrapped, written, between⟩ :=
        exists_node shape valueKey
      exact ⟨member, ⟨⟨dmNode.key, rfl, named⟩, wrapped⟩, written, between⟩
  | struct dmStruct =>
      rw [value] at shape
      obtain ⟨keyed, shape⟩ := shape
      obtain ⟨rendered, renders, text⟩ := exists_struct shape
      obtain ⟨member, named, wrapped, written, between⟩ :=
        exists_member keyed valueKey renders
      obtain ⟨key, same, -⟩ := keyed
      refine ⟨member, ⟨⟨dmStruct.key, rfl, named⟩, wrapped⟩, ?_, between⟩
      dsimp only
      rw [written, text, DmTypeStruct.text, same, structFormat_text]
  | arrayBase dmArrayBase =>
      rw [value] at shape
      obtain ⟨keyed, -, keyless⟩ := shape
      obtain ⟨gap, elements, renders, text⟩ :=
        exists_array fun dmNode mem => exists_keyless (keyless dmNode mem)
      have array : RendersValue (.arrayBase dmArrayBase)
          (.array gap elements) := ⟨gap, elements, rfl, renders⟩
      obtain ⟨member, named, wrapped, written, between⟩ :=
        exists_member keyed valueKey array
      obtain ⟨key, same, -⟩ := keyed
      refine ⟨member, ⟨⟨dmArrayBase.key, rfl, named⟩, wrapped⟩, ?_, between⟩
      dsimp only
      rw [written, text, same, arrayFormat_text]
  | arrayStruct dmArrayStruct =>
      rw [value] at shape
      obtain ⟨keyed, -, keyless⟩ := shape
      obtain ⟨gap, elements, renders, text⟩ :=
        exists_array fun dmStruct mem =>
          exists_keylessStruct (keyless dmStruct mem).1 (keyless dmStruct mem).2
      have array : RendersValue (.arrayStruct dmArrayStruct)
          (.array gap elements) := ⟨gap, elements, rfl, renders⟩
      obtain ⟨member, named, wrapped, written, between⟩ :=
        exists_member keyed valueKey array
      obtain ⟨key, same, -⟩ := keyed
      refine ⟨member, ⟨⟨dmArrayStruct.key, rfl, named⟩, wrapped⟩, ?_, between⟩
      dsimp only
      rw [written, text, same, arrayFormat_text]
  | illegal =>
      rw [value] at shape
      exact shape.elim

/-- Where all arrays can be allocated and the text of the properties is shorter
than these, the payload in braces is the object whose members render the
properties in their order. -/
theorem propertiesPayload_object {properties : List DmProperty}
    (nonempty : properties ≠ [])
    (shapes : ∀ property ∈ properties, property.value.Shape) (valueKey : Bool)
    (payload : Buffer) {memory : Nat → PropertyMemory}
    (allocated : ∀ loop, (memory loop).Allocated) (propertiesPayload : Buffer)
    (short : (joined (DmProperty.text valueKey) properties).length <
      dmMsgReportBufLen) :
    let generated := dmGenPropertiesPayload (some properties) .propertyPost
      valueKey (some payload) memory (some propertiesPayload)
    generated.ret = .successRet ∧
      ∃ gap members,
        List.Forall₂ (RendersProperty valueKey) properties members ∧
        ascii "\x7b" ++ generated.payload ++ ascii "\x7d" =
          (Value.object gap members).text := by
  intro generated
  obtain ⟨ret, text⟩ := propertiesPayload_text nonempty shapes valueKey payload
    allocated propertiesPayload short
  obtain ⟨members, all, written⟩ := exists_members fun property mem =>
    exists_property (shapes property mem) valueKey
  have braces : ascii "\x7b" = [123] ∧ ascii "\x7d" = [125] := by
    decide +kernel
  refine ⟨ret, .none, members, all, ?_⟩
  rw [Value.text, written, ← text, braces.1, braces.2]
  simp [Blanks.none, generated]

/-- A node with a number, and an array of a struct with a string. -/
def twoProperties : List DmProperty :=
  [⟨.node ⟨some ⟨ascii "n", by decide +kernel⟩, .int (-5)⟩, 0⟩,
    ⟨.arrayStruct ⟨some ⟨ascii "a", by decide +kernel⟩,
      [⟨none, [⟨some ⟨ascii "s", zero_not_mem_s⟩,
        .string (some ⟨ascii "text", by decide +kernel⟩)⟩]⟩]⟩, 0⟩]

theorem twoProperties_shapes :
    ∀ property ∈ twoProperties, property.value.Shape := by
  have number : DmPropertyValue.Shape
      (.node ⟨some ⟨ascii "n", by decide +kernel⟩, .int (-5)⟩) :=
    ⟨⟨_, rfl, by decide +kernel⟩, trivial⟩
  have nodes : StructShape ⟨none, [⟨some ⟨ascii "s", zero_not_mem_s⟩,
      .string (some ⟨ascii "text", by decide +kernel⟩)⟩]⟩ :=
    ⟨List.cons_ne_nil _ _, List.forall_mem_singleton.mpr
      ⟨⟨_, rfl, by decide +kernel⟩, ⟨_, rfl, by decide +kernel⟩⟩⟩
  refine List.forall_mem_cons.mpr ⟨number, List.forall_mem_singleton.mpr ?_⟩
  exact ⟨⟨_, rfl, by decide +kernel⟩, List.cons_ne_nil _ _,
    List.forall_mem_singleton.mpr ⟨rfl, nodes⟩⟩

/-- An empty array of `DM_MSG_REPORT_BUF_LEN` bytes. -/
def emptyBuffer : Buffer := ⟨[], Nat.zero_le _⟩

theorem propertiesPayload_object_two :
    let generated := dmGenPropertiesPayload (some twoProperties) .propertyPost
      true (some emptyBuffer)
      (fun _ => ⟨some emptyBuffer, fun _ => some emptyBuffer⟩)
      (some emptyBuffer)
    generated.ret = .successRet ∧
      ∃ gap members,
        List.Forall₂ (RendersProperty true) twoProperties members ∧
        ascii "\x7b" ++ generated.payload ++ ascii "\x7d" =
          (Value.object gap members).text :=
  propertiesPayload_object (List.cons_ne_nil _ _) twoProperties_shapes true
    emptyBuffer (fun _ => ⟨rfl, fun _ => rfl⟩) emptyBuffer
    (by decide +kernel)

/-- Without memory for the array of a property nothing is generated. -/
theorem propertiesPayload_unallocated :
    ¬∀ (properties : List DmProperty), properties ≠ [] →
      (∀ property ∈ properties, property.value.Shape) →
        ∀ (valueKey : Bool) (payload : Option Buffer)
          (memory : Nat → PropertyMemory) (propertiesPayload : Buffer),
          (joined (DmProperty.text valueKey) properties).length <
              dmMsgReportBufLen →
            (dmGenPropertiesPayload (some properties) .propertyPost valueKey
              payload memory (some propertiesPayload)).ret = .successRet := by
  intro succeeds
  have success := succeeds twoProperties (List.cons_ne_nil _ _)
    twoProperties_shapes true none
    (fun _ => ⟨some emptyBuffer, fun _ => some emptyBuffer⟩) emptyBuffer
    (by decide +kernel)
  exact absurd success nofun

end Dm
end UIoT
