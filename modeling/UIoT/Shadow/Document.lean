import UIoT.Defs

/-!
# Shadow documents

The document of a request is printed into the caller's buffer piece by piece:
its beginning, the properties and its end.  A buffer is seen as the string it
holds, up to its terminator.  Sizes are values of the 64-bit `size_t`, and
`HAL_Snprintf` takes its size as an `int`.
-/

namespace UIoT
namespace Shadow

/-! ## Requests and properties -/

/-- `Method` -/
inductive Method
  | get
  | update
  | updateAndResetVer
  | delete
  | deleteAll
  | replyControlUpdate
  | replyControlDelete
  deriving DecidableEq, Repr

/-- What the data of a property is, by its `JsonDataType`; of a floating-point
value, what `%f` prints of it. -/
inductive PropertyData
  | jint32 (value : Int32)
  | jint16 (value : Int16)
  | jint8 (value : Int8)
  | juint32 (value : UInt32)
  | juint16 (value : UInt16)
  | juint8 (value : UInt8)
  | jfloat (printed : CString)
  | jdouble (printed : CString)
  | jbool (value : Bool)
  | jstring (value : CString)
  | jobject (value : CString)
  deriving DecidableEq

/-- `DeviceProperty`, with the key that both ways into a list ask for. -/
structure DeviceProperty where
  key : CString
  data : Option PropertyData
  deriving DecidableEq

/-- `RequestParams`; a callback and its user data are addresses. -/
structure RequestParams where
  method : Method
  propertyDeltaList : List DeviceProperty
  timeoutSec : UInt32
  requestCallback : Option Nat
  userContext : Nat

/-! ## Printing -/

/-- `HAL_Snprintf` from a byte of the buffer on: the string the buffer then
holds, and what is returned. -/
def halSnprintf (text : List UInt8) (offset size : Nat)
    (formatted : List UInt8) : List UInt8 × Int :=
  let len := Int.bmod size (2 ^ 32)
  let result : Int := if formatted.length < 2 ^ 31 then formatted.length else -1
  if len = 0 then
    (text, result)
  else if len < 0 then
    -- `vsnprintf` gets the negative length as a huge one
    (text.take offset ++ formatted, result)
  else
    (text.take offset ++ formatted.take (len.toNat - 1), result)

/-- `_check_snprintf_return`, which compares the result as a `size_t`. -/
def checkSnprintfReturn (returnCode : Int) (maxSizeOfWrite : Nat) : IoTError :=
  if maxSizeOfWrite ≤ (returnCode % 2 ^ 64).toNat then .errJsonBufferTruncated
  else if returnCode < 0 then .errJson
  else .successRet

/-- The value of a property in a document. -/
def PropertyData.printed : PropertyData → List UInt8
  | jint32 value => decimal value.toInt ++ ascii ","
  | jint16 value => decimal value.toInt ++ ascii ","
  | jint8 value => decimal value.toInt ++ ascii ","
  | juint32 value => decimal value.toNat ++ ascii ","
  | juint16 value => decimal value.toNat ++ ascii ","
  | juint8 value => decimal value.toNat ++ ascii ","
  | jfloat printed => printed.bytes ++ ascii ","
  | jdouble printed => printed.bytes ++ ascii ","
  | jbool value => decimal (if value then 1 else 0) ++ ascii ","
  | jstring value => ascii "\"" ++ value.bytes ++ ascii "\","
  | jobject value => value.bytes ++ ascii ","

/-- `put_json_node` -/
def putJsonNode (jsonBuffer : List UInt8) (sizeOfBuffer : Nat) (key : CString)
    (data : Option PropertyData) : List UInt8 × IoTError :=
  let remainSize := sizeOfPtrDiff sizeOfBuffer jsonBuffer.length
  if remainSize ≤ 1 then
    (jsonBuffer, .errJsonBufferTooSmall)
  else
    match halSnprintf jsonBuffer jsonBuffer.length remainSize
        (ascii "\"" ++ key.bytes ++ ascii "\":") with
    | (jsonBuffer, result) =>
        match checkSnprintfReturn result remainSize with
        | .successRet =>
            let remainSize := sizeOfPtrDiff sizeOfBuffer jsonBuffer.length
            if remainSize ≤ 1 then
              (jsonBuffer, .errJsonBufferTooSmall)
            else
              let value := (data.map PropertyData.printed).getD (ascii "null,")
              let (jsonBuffer, result) :=
                halSnprintf jsonBuffer jsonBuffer.length remainSize value
              (jsonBuffer, checkSnprintfReturn result remainSize)
        | ret => (jsonBuffer, ret)

/-! ## The parts of a document -/

/-- What `shadow_json_init` prints. -/
def documentHead (params : RequestParams) : List UInt8 :=
  match params.method with
  | .get => ascii "\x7b\"Method\":\"get\""
  | .update | .updateAndResetVer =>
      ascii "\x7b\"Method\":\"update\",\"State\":\x7b\"Reported\":\x7b"
  | .replyControlUpdate =>
      if params.propertyDeltaList.length ≠ 0 then
        ascii "\x7b\"Method\":\"update\",\"State\":\x7b\"Reported\":\x7b"
      else
        ascii "\x7b\"Method\":\"update\",\"State\":\x7b"
  | .delete | .replyControlDelete =>
      if params.propertyDeltaList.length ≠ 0 then
        ascii "\x7b\"Method\":\"delete\",\"State\":\x7b\"Reported\":\x7b"
      else
        ascii "\x7b\"Method\":\"delete\",\"State\":\x7b"
  | .deleteAll => ascii "\x7b\"Method\":\"delete\",\"State\":\x7b\"Reported\":"

/-- `shadow_json_init` -/
def shadowJsonInit (pJsonDoc : List UInt8) (sizeOfBuffer : Nat)
    (params : RequestParams) : List UInt8 × IoTError :=
  ((halSnprintf pJsonDoc 0 sizeOfBuffer (documentHead params)).1, .successRet)

/-- The data `shadow_json_set_content` prints for a property. -/
def contentData (method : Method) (property : DeviceProperty) :
    Option PropertyData :=
  match method with
  | .update | .updateAndResetVer | .replyControlUpdate => property.data
  | _ => none

/-- The loop of `shadow_json_set_content`.  `put_json_node` gets the size that
remains, and its answer is not looked at. -/
def setContentLoop (method : Method) (sizeOfBuffer : Nat) :
    List DeviceProperty → List UInt8 → List UInt8
  | [], pJsonDoc => pJsonDoc
  | property :: properties, pJsonDoc =>
      let remainSize := sizeOfPtrDiff sizeOfBuffer pJsonDoc.length
      let (pJsonDoc, _) := putJsonNode pJsonDoc remainSize property.key
        (contentData method property)
      setContentLoop method sizeOfBuffer properties pJsonDoc

/-- `shadow_json_set_content`; the list is iterated from its tail. -/
def shadowJsonSetContent (pJsonDoc : List UInt8) (sizeOfBuffer : Nat)
    (params : RequestParams) (iteratorAllocated : Bool) :
    List UInt8 × IoTError :=
  match params.method with
  | .get => (pJsonDoc, .successRet)
  | .deleteAll =>
      let remainSize := sizeOfPtrDiff sizeOfBuffer pJsonDoc.length
      let (pJsonDoc, result) :=
        halSnprintf pJsonDoc pJsonDoc.length remainSize (ascii "null")
      (pJsonDoc, checkSnprintfReturn result remainSize)
  | method =>
      if params.propertyDeltaList.length = 0 then
        (pJsonDoc, .successRet)
      else if !iteratorAllocated then
        (pJsonDoc, .errParamInvalid)
      else
        (setContentLoop method sizeOfBuffer params.propertyDeltaList.reverse
          pJsonDoc, .successRet)

/-- The number of the last bytes of the document that its end replaces, and the
end. -/
def documentTail (params : RequestParams) (version : UInt32) :
    Nat × List UInt8 :=
  -- the version is printed with `%d`
  let versionEnd := decimal version.toInt32.toInt ++ ascii "\x7d"
  match params.method with
  | .get => (0, ascii "\x7d")
  | .deleteAll => (0, ascii "\x7d,\"Version\":" ++ versionEnd)
  | .updateAndResetVer => (1, ascii "\x7d\x7d,\"Version\":-1\x7d")
  | .replyControlUpdate | .replyControlDelete =>
      if params.propertyDeltaList.length ≠ 0 then
        (1, ascii "\x7d,\"Desired\":null\x7d,\"Version\":" ++ versionEnd)
      else
        (0, ascii "\"Desired\":null\x7d,\"Version\":" ++ versionEnd)
  | .update | .delete => (1, ascii "\x7d\x7d,\"Version\":" ++ versionEnd)

/-- `shadow_json_finalize` -/
def shadowJsonFinalize (pJsonDoc : List UInt8) (sizeOfBuffer : Nat)
    (params : RequestParams) (version : UInt32) : List UInt8 × IoTError :=
  let remainSize := sizeOfPtrDiff sizeOfBuffer pJsonDoc.length
  if remainSize ≤ 1 then
    (pJsonDoc, .errJsonBufferTooSmall)
  else
    let (replaced, ending) := documentTail params version
    let (pJsonDoc, result) :=
      halSnprintf pJsonDoc (pJsonDoc.length - replaced) remainSize ending
    (pJsonDoc, checkSnprintfReturn result remainSize)

/-- The document of a request as `uiot_shadow_make_request` builds it, step
after step until one fails. -/
def buildDocument (pJsonDoc : Option (List UInt8)) (sizeOfBuffer : Nat)
    (params : RequestParams) (version : UInt32) (iteratorAllocated : Bool) :
    Except IoTError (List UInt8) :=
  match pJsonDoc with
  | none => .error .errParamInvalid
  | some pJsonDoc =>
      match shadowJsonInit pJsonDoc sizeOfBuffer params with
      | (pJsonDoc, .successRet) =>
          match shadowJsonSetContent pJsonDoc sizeOfBuffer params
              iteratorAllocated with
          | (pJsonDoc, .successRet) =>
              match shadowJsonFinalize pJsonDoc sizeOfBuffer params version with
              | (pJsonDoc, .successRet) => .ok pJsonDoc
              | (_, ret) => .error ret
          | (_, ret) => .error ret
      | (_, ret) => .error ret

end Shadow
end UIoT
