import UIoT.Dm.Messages
import UIoT.Library.BoundedPrinting

/-!
# Payloads of properties

The generators of `dm_mqtt.c` print a property, its members and their members
one inside the other, each into an array of `DM_MSG_REPORT_BUF_LEN` bytes.  What
is generated by one is a piece of what the next one prints.
-/

namespace UIoT
namespace Dm

open BoundedPrinting

/-! ## Properties -/

/-- `DM_Type` -/
inductive DmType
  | propertyRestore
  | propertyPost
  | propertySet
  | propertyDesiredGet
  | propertyDesiredDelete
  | eventPost
  | command
  deriving DecidableEq, Repr

/-- `DM_Base_Type` with the member of `DM_Base_Value_U` it selects; of a
floating-point value what `%f` prints of it. -/
inductive DmBaseValue
  | int (int32Value : Int32)
  | float (printed : CString)
  | double (printed : CString)
  | bool (boolValue : Bool)
  | enum (enumValue : Int32)
  | string (stringValue : Option CString)
  | date (dateValue : Int64)
  | illegal

/-- `DM_Node_t` -/
structure DmNode where
  key : Option CString
  value : DmBaseValue

/-- `DM_Type_Struct_t` -/
structure DmTypeStruct where
  key : Option CString
  value : List DmNode

/-- `DM_Array_Base_t` -/
structure DmArrayBase where
  key : Option CString
  value : List DmNode

/-- `DM_Array_Struct_t` -/
structure DmArrayStruct where
  key : Option CString
  value : List DmTypeStruct

/-- `DM_Parse_Type` with the member of `DM_Property_Value_U` it selects. -/
inductive DmPropertyValue
  | node (dmNode : DmNode)
  | struct (dmStruct : DmTypeStruct)
  | arrayBase (dmArrayBase : DmArrayBase)
  | arrayStruct (dmArrayStruct : DmArrayStruct)
  | illegal

/-- `DM_Property_t` -/
structure DmProperty where
  value : DmPropertyValue
  desiredVer : Int32

/-! ## Generators -/

/-- What an array of `DM_MSG_REPORT_BUF_LEN` bytes holds: the bytes up to the
first zero, or all of them. -/
structure Buffer where
  text : List UInt8
  fits : text.length ≤ dmMsgReportBufLen

/-- What a generator does: what it returns, what its array then holds, and its
calls of `HAL_Snprintf`. -/
structure Generated where
  ret : IoTError
  payload : List UInt8
  prints : List Print

/-- What `%s` prints. -/
def percentS : Option CString → List UInt8
  | some text => text.bytes
  | none => ascii "(null)"

/-- What is printed of a value; strings are quoted. -/
def DmBaseValue.printed : DmBaseValue → Option (List UInt8)
  | int int32Value => some (decimal int32Value.toInt)
  | float printed => some printed.bytes
  | double printed => some printed.bytes
  | bool boolValue => some (decimal (if boolValue then 1 else 0))
  | enum enumValue => some (decimal enumValue.toInt)
  | string stringValue =>
      some (ascii "\"" ++ percentS stringValue ++ ascii "\"")
  | date dateValue => some (decimal dateValue.toInt)
  | illegal => none

/-- What is printed in front of a value with a key. -/
def opening (key : List UInt8) (valueKey : Bool) : List UInt8 :=
  ascii "\"" ++ key ++
    (if valueKey then ascii "\": \x7b\"Value\": " else ascii "\": ")

/-- What is printed behind a value with a key. -/
def closing (valueKey : Bool) : List UInt8 :=
  if valueKey then ascii "\x7d" else []

/-- A node as it is printed, with its key if it has one. -/
def nodeText (key : Option CString) (valueKey : Bool) (value : List UInt8) :
    List UInt8 :=
  match key with
  | some key => opening key.bytes valueKey ++ value ++ closing valueKey
  | none => value

/-- `dm_gen_node_payload` -/
def dmGenNodePayload (dmNode : DmNode) (valueKey : Bool)
    (nodePayload : List UInt8) : Generated :=
  match dmNode.value.printed with
  | none => ⟨.failureRet, nodePayload, []⟩
  | some value =>
      let print : Print :=
        ⟨0, dmMsgReportBufLen, nodeText dmNode.key valueKey value⟩
      let ret := print.result
      ⟨if ret < 0 ∨ ret ≥ dmMsgReportBufLen then .failureRet else .successRet,
        print.written nodePayload, [print]⟩

/-- What is printed in front of the first of several elements and behind the
last. -/
structure Format where
  opening : List UInt8
  closing : List UInt8

/-- What is printed of an element. -/
def Format.piece (format : Format) (first last : Bool) (element : List UInt8) :
    List UInt8 :=
  if first then format.opening ++ element
  else if last then ascii ", " ++ element ++ format.closing
  else ascii ", " ++ element

/-- The variables of a loop over elements: the string in the array, the string
in that of an element, the two sizes, and the calls made so far. -/
structure Joining where
  payload : List UInt8
  element : List UInt8
  writeSize : Int
  remainSize : Int
  prints : List Print

/-- An element is generated into its array. -/
def Joining.receive (s : Joining) (generated : Generated) : Joining :=
  { s with
    element := generated.payload
    prints := s.prints ++ generated.prints }

/-- The call that prints the generated element. -/
def Joining.print (s : Joining) (format : Format) (first last : Bool) : Print :=
  let piece := format.piece first last s.element
  if first then ⟨0, dmMsgReportBufLen, piece⟩
  else ⟨s.payload.length, s.remainSize, piece⟩

/-- The generated element is printed. -/
def Joining.append (s : Joining) (format : Format) (first last : Bool) :
    Joining :=
  let print := s.print format first last
  { s with
    payload := print.written s.payload
    writeSize := print.result
    remainSize :=
      (if first then (dmMsgReportBufLen : Int) else s.remainSize) - print.result
    prints := s.prints ++ [print] }

/-- The loop over the elements. -/
def joinFrom {α : Type} (format : Format)
    (generate : Nat → α → List UInt8 → Generated) :
    (loop : Nat) → List α → Joining → IoTError × Joining
  | _, [], s => (.successRet, s)
  | loop, element :: elements, s =>
      let generated := generate loop element s.element
      let s := s.receive generated
      if generated.ret ≠ .successRet then (generated.ret, s)
      else
        joinFrom format generate (loop + 1) elements
          (s.append format (loop = 0) elements.isEmpty)

/-- All elements in a loop, and the test of the sizes behind it. -/
def genJoined {α : Type} (format : Format)
    (generate : Nat → α → List UInt8 → Generated) (elements : List α)
    (elementPayload : Buffer) (payload : List UInt8) : Generated :=
  let (ret, s) := joinFrom format generate 0 elements
    ⟨payload, elementPayload.text, 0, 0, []⟩
  if ret ≠ .successRet then ⟨ret, s.payload, s.prints⟩
  else
    ⟨if s.writeSize < 0 ∨ s.remainSize < 0 then .failureRet else .successRet,
      s.payload, s.prints⟩

/-- An element that is the only one, printed in one piece; `remain_size` stays
zero. -/
def genSingle {α : Type} (format : Format)
    (generate : Nat → α → List UInt8 → Generated) (element : α)
    (elementPayload : Buffer) (payload : List UInt8) : Generated :=
  let generated := generate 0 element elementPayload.text
  if generated.ret ≠ .successRet then
    ⟨generated.ret, payload, generated.prints⟩
  else
    let print : Print :=
      ⟨0, dmMsgReportBufLen,
        format.opening ++ generated.payload ++ format.closing⟩
    ⟨if print.result < 0 then .failureRet else .successRet,
      print.written payload, generated.prints ++ [print]⟩

/-- The body that the generators of structs and arrays have, with the array for
an element if it can be allocated. -/
def genElements {α : Type} (format : Format)
    (generate : Nat → α → List UInt8 → Generated) (elements : List α)
    (elementPayload : Option Buffer) (payload : List UInt8) : Generated :=
  match elementPayload, elements with
  | none, _ => ⟨.failureRet, payload, []⟩
  | some elementPayload, [element] =>
      genSingle format generate element elementPayload payload
  | some elementPayload, elements =>
      genJoined format generate elements elementPayload payload

/-- What `dm_gen_struct_payload` prints around the nodes. -/
def structFormat (key : Option CString) (valueKey : Bool) : Format :=
  match key with
  | some key =>
      ⟨opening key.bytes valueKey ++ ascii "\x7b",
        ascii "\x7d" ++ closing valueKey⟩
  | none => ⟨ascii "\x7b", ascii "\x7d"⟩

/-- What the generators of arrays print around the elements. -/
def arrayFormat (key : Option CString) (valueKey : Bool) : Format :=
  ⟨opening (percentS key) valueKey ++ ascii "[", ascii "]" ++ closing valueKey⟩

/-- `dm_gen_struct_payload` -/
def dmGenStructPayload (dmStruct : DmTypeStruct) (valueKey : Bool)
    (nodePayload : Option Buffer) (structPayload : List UInt8) : Generated :=
  genElements (structFormat dmStruct.key valueKey)
    (fun _ dmNode => dmGenNodePayload dmNode false) dmStruct.value nodePayload
    structPayload

/-- `dm_gen_array_base_payload` -/
def dmGenArrayBasePayload (dmArrayBase : DmArrayBase) (valueKey : Bool)
    (nodePayload : Option Buffer) (arrayBasePayload : List UInt8) :
    Generated :=
  genElements (arrayFormat dmArrayBase.key valueKey)
    (fun _ dmNode => dmGenNodePayload dmNode false) dmArrayBase.value
    nodePayload arrayBasePayload

/-- `dm_gen_array_struct_payload`; each of its structs allocates an array for
its nodes. -/
def dmGenArrayStructPayload (dmArrayStruct : DmArrayStruct) (valueKey : Bool)
    (structPayload : Option Buffer) (nodePayload : Nat → Option Buffer)
    (arrayStructPayload : List UInt8) : Generated :=
  genElements (arrayFormat dmArrayStruct.key valueKey)
    (fun loop dmStruct =>
      dmGenStructPayload dmStruct false (nodePayload loop))
    dmArrayStruct.value structPayload arrayStructPayload

/-- What can be allocated for a property: the array for its elements and those
for the nodes of its structs. -/
structure PropertyMemory where
  element : Option Buffer
  node : Nat → Option Buffer

/-- `dm_gen_property_post_payload` -/
def dmGenPropertyPostPayload (property : DmProperty) (valueKey : Bool)
    (memory : PropertyMemory) (propertyPayload : List UInt8) : Generated :=
  match property.value with
  | .node dmNode => dmGenNodePayload dmNode valueKey propertyPayload
  | .struct dmStruct =>
      dmGenStructPayload dmStruct valueKey memory.element propertyPayload
  | .arrayBase dmArrayBase =>
      dmGenArrayBasePayload dmArrayBase valueKey memory.element propertyPayload
  | .arrayStruct dmArrayStruct =>
      dmGenArrayStructPayload dmArrayStruct valueKey memory.element memory.node
        propertyPayload
  | .illegal => ⟨.failureRet, propertyPayload, []⟩

/-- The key of a property, whatever it is. -/
def DmPropertyValue.key : DmPropertyValue → Option (Option CString)
  | node dmNode => some dmNode.key
  | struct dmStruct => some dmStruct.key
  | arrayBase dmArrayBase => some dmArrayBase.key
  | arrayStruct dmArrayStruct => some dmArrayStruct.key
  | illegal => none

/-- The body of the two generators that print the key of a property. -/
def genKey (property : DmProperty) (text : List UInt8 → List UInt8)
    (payload : List UInt8) : Generated :=
  match property.value.key with
  | none => ⟨.failureRet, payload, []⟩
  | some key =>
      let print : Print := ⟨0, dmMsgReportBufLen, text (percentS key)⟩
      ⟨if print.result < 0 then .failureRet else .successRet,
        print.written payload, [print]⟩

/-- `dm_gen_property_desired_payload` -/
def dmGenPropertyDesiredPayload (property : DmProperty)
    (desiredPayload : List UInt8) : Generated :=
  genKey property (fun key => ascii "\"" ++ key ++ ascii "\"") desiredPayload

/-- `dm_gen_property_delete_payload` -/
def dmGenPropertyDeletePayload (property : DmProperty)
    (deletePayload : List UInt8) : Generated :=
  genKey property
    (fun key => ascii "\"" ++ key ++ ascii "\": \x7b\"version\": " ++
      decimal property.desiredVer.toInt ++ ascii "\x7d")
    deletePayload

/-- The generator for a property in a message of the type.  For another type the
loop goes on with what the array holds. -/
def genProperty (type : DmType) (valueKey : Bool) (property : DmProperty)
    (memory : PropertyMemory) (payload : List UInt8) : Generated :=
  match type with
  | .propertyPost =>
      dmGenPropertyPostPayload property valueKey memory payload
  | .propertyDesiredGet => dmGenPropertyDesiredPayload property payload
  | .propertyDesiredDelete => dmGenPropertyDeletePayload property payload
  | _ => ⟨.successRet, payload, []⟩

/-- `dm_gen_properties_payload` -/
def dmGenPropertiesPayload (property : Option (List DmProperty))
    (type : DmType) (valueKey : Bool) (payload : Option Buffer)
    (memory : Nat → PropertyMemory) (propertiesPayload : Option Buffer) :
    Generated :=
  match property, propertiesPayload, payload with
  | some properties, some propertiesPayload, some payload =>
      genJoined ⟨[], []⟩
        (fun loop property => genProperty type valueKey property (memory loop))
        properties payload propertiesPayload.text
  | _, propertiesPayload, _ =>
      ⟨.failureRet, (propertiesPayload.map Buffer.text).getD [], []⟩

end Dm
end UIoT
