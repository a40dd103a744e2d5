import Mathlib.Data.List.Basic

/-!
# The JSON scanner

`json_get_next_object` finds the next key and value behind a position in a
string, and `LITE_json_value_of` looks a dotted path of keys up with it.  A
`char *` is the list of the bytes from the pointer on, those behind the
terminator included; behind the list there are zero bytes only.
-/

namespace UIoT
namespace Json

/-! ## Strings -/

/-- `char *` -/
abbrev CharPtr := List UInt8

/-- The byte at a pointer. -/
def deref (str : CharPtr) : UInt8 := str.headD 0

/-- The bytes in front of the terminator. -/
def cString (str : CharPtr) : List UInt8 := str.takeWhile (· ≠ 0)

/-- `strchr`, for a character that is not the terminator. -/
def strchr (c : UInt8) : CharPtr → Option CharPtr
  | [] => none
  | byte :: str =>
      if byte = c then some (byte :: str)
      else if byte = 0 then none
      else strchr c str

/-- `strncmp(first, second, count) == 0` -/
def strncmpEq : (first second : CharPtr) → (count : Nat) → Bool
  | _, _, 0 => true
  | first, second, count + 1 =>
      deref first == deref second &&
        (deref first == 0 || strncmpEq first.tail second.tail count)

/-! ## One key and value -/

/-- `enum JSONTYPE` without `JSNONE` -/
inductive JsonType
  | string
  | object
  | array
  | number
  | boolean
  | null
  deriving DecidableEq, Repr

/-- `json_get_object` for `JSOBJECT` -/
def jsonGetObject : CharPtr → Option CharPtr
  | [] => none
  | byte :: str =>
      if byte = 0 then none
      else if byte = 32 then jsonGetObject str
      else if byte = 123 then some (byte :: str)
      else none

/-- The loop of `json_get_next_object` that looks for a value: its type and
where it begins. -/
def findValue : CharPtr → Option (JsonType × CharPtr)
  | [] => none
  | byte :: str =>
      if byte = 0 then none
      else if byte = 34 then some (.string, str)
      else if byte = 123 then some (.object, byte :: str)
      else if byte = 91 then some (.array, byte :: str)
      else if byte = 45 ∨ (48 ≤ byte ∧ byte ≤ 57) then
        some (.number, byte :: str)
      else if byte = 116 ∨ byte = 84 ∨ byte = 102 ∨ byte = 70 then
        some (.boolean, byte :: str)
      else if byte = 110 ∨ byte = 78 then some (.null, byte :: str)
      else findValue str

/-- The second loop on a number, of which `count` bytes are passed. -/
def numberLen : (str : CharPtr) → (count : Nat) → Nat
  | [], _ => 0
  | byte :: str, count =>
      if byte = 0 then 0
      else if (byte < 48 ∨ 57 < byte) ∧ byte ≠ 46 then count
      else numberLen str (count + 1)

/-- The second loop on a value between two marks, of which `count` bytes are
passed: how many there are in front of the closing one. -/
def markedLen (opening closing : UInt8) :
    (str : CharPtr) → (markDepth count : Nat) → Option Nat
  | [], _, _ => none
  | byte :: str, markDepth, count =>
      if byte = 0 then none
      else if byte = closing then
        if markDepth = 0 then some count
        else markedLen opening closing str (markDepth - 1) (count + 1)
      else if byte = opening then
        markedLen opening closing str (markDepth + 1) (count + 1)
      else
        markedLen opening closing str markDepth (count + 1)

/-- The second loop on a name: its length if it stands there in small or in
capital letters. -/
def nameLen (value : CharPtr) (small capital : List UInt8) : Nat :=
  if strncmpEq value small small.length ||
      strncmpEq value capital capital.length then small.length
  else 0

/-- `"true"`, `"false"` and `"null"`, small and capital. -/
def trueNames : List UInt8 × List UInt8 :=
  ([116, 114, 117, 101], [84, 82, 85, 69])
def falseNames : List UInt8 × List UInt8 :=
  ([102, 97, 108, 115, 101], [70, 65, 76, 83, 69])
def nullNames : List UInt8 × List UInt8 :=
  ([110, 117, 108, 108], [78, 85, 76, 76])

/-- `iValueLen`, which stays zero where the second loop meets the terminator
first. -/
def valueLen (type : JsonType) (value : CharPtr) : Nat :=
  match type with
  | .string => (markedLen 34 34 value 0 0).getD 0
  | .object => ((markedLen 123 125 value.tail 0 1).map (· + 1)).getD 0
  | .array => ((markedLen 91 93 value.tail 0 1).map (· + 1)).getD 0
  | .number => numberLen value.tail 1
  | .boolean =>
      if deref value = 116 ∨ deref value = 84 then
        nameLen value trueNames.1 trueNames.2
      else
        nameLen value falseNames.1 falseNames.2
  | .null => nameLen value nullNames.1 nullNames.2

/-- What `json_get_next_object` finds, and the position it returns. -/
structure Entry where
  key : CharPtr
  keyLen : Nat
  val : CharPtr
  valLen : Nat
  valType : JsonType
  next : CharPtr

/-- `json_get_next_object` for `JSOBJECT`.  Where there is no value it returns
`NULL`. -/
def jsonGetNextObject (str : CharPtr) : Option Entry :=
  match strchr 34 str with
  | none => none
  | some opening =>
      let key := opening.tail
      match strchr 34 key with
      | none => none
      | some closing =>
          match strchr 58 closing with
          | none => none
          | some colon =>
              match findValue colon with
              | none => none
              | some (valType, val) =>
                  let valLen := valueLen valType val
                  some
                    { key
                      keyLen := key.length - closing.length
                      val
                      valLen
                      valType
                      next :=
                        if valType = .string then val.drop (valLen + 1)
                        else val.drop valLen }

/-- What `json_get_next_object` finds in an array. -/
structure Element where
  val : CharPtr
  valLen : Nat
  valType : JsonType
  next : CharPtr

/-- `json_get_next_object` for another type than `JSOBJECT`: the value is the
first one that begins. -/
def jsonGetNextElement (str : CharPtr) : Option Element :=
  match findValue str with
  | none => none
  | some (valType, val) =>
      let valLen := valueLen valType val
      some
        { val
          valLen
          valType
          next :=
            if valType = .string then val.drop (valLen + 1)
            else val.drop valLen }

/-! ## Looking keys up -/

/-- The loop of `json_object_for_each_kv` from a position on.  Every turn moves
the position on, so as many turns as there are bytes are enough. -/
def entriesFrom : (turns : Nat) → (pos : CharPtr) → List Entry
  | 0, _ => []
  | turns + 1, pos =>
      if deref pos = 0 then []
      else
        match jsonGetNextObject pos with
        | none => []
        | some entry => entry :: entriesFrom turns entry.next

/-- `json_object_for_each_kv` -/
def jsonObjectForEachKv (str : CharPtr) : List Entry :=
  match jsonGetObject str with
  | none => []
  | some pos => entriesFrom pos.length pos

/-- The test of `json_parse_name_value` in front of its callback. -/
def Entry.reported (entry : Entry) : Bool :=
  entry.keyLen ≠ 0 && entry.valLen ≠ 0

/-- `json_get_value_by_name` for the whole of a string: where the value begins
and its length. -/
def jsonGetValueByName (str : CharPtr) (name : List UInt8) :
    Option (CharPtr × Nat) :=
  ((jsonObjectForEachKv str).find? fun entry =>
    entry.reported && strncmpEq entry.key name name.length).map fun entry =>
      (entry.val, entry.valLen)

/-- The keys of a path looked up one inside the other. -/
def valueAlong : (keys : List (List UInt8)) → CharPtr → Option (CharPtr × Nat)
  | [], _ => none
  | [key], src => jsonGetValueByName src key
  | key :: next :: keys, src =>
      match jsonGetValueByName src key with
      | none => none
      | some (value, _) => valueAlong (next :: keys) value

/-- `LITE_json_value_of` where its allocations succeed. -/
def liteJsonValueOf (key : List UInt8) (src : CharPtr) : Option (List UInt8) :=
  (valueAlong (key.splitOn 46) src).map fun (value, valueLen) =>
    (cString value).take valueLen

/-- `LITE_json_value_of` with the outcome of the allocation of the copy it
returns.  Those of the keys in front of a dot, which it does not check,
succeed. -/
def liteJsonCopyOf (copied : Bool) (key : List UInt8) (src : CharPtr) :
    Option (List UInt8) :=
  if copied then liteJsonValueOf key src else none

@[simp] theorem liteJsonCopyOf_true (key : List UInt8) (src : CharPtr) :
    liteJsonCopyOf true key src = liteJsonValueOf key src := rfl

@[simp] theorem liteJsonCopyOf_false (key : List UInt8) (src : CharPtr) :
    liteJsonCopyOf false key src = none := rfl

end Json
end UIoT
