import UIoT.Library.DecimalDigits
import UIoT.Library.JsonNumbers
import UIoT.Shadow.Messages

/-!
# Reading property values

The functions of `json_token.c` that scan a number or a boolean, and
`IOT_Shadow_Direct_Update_Value`, which stores what they find in a property.
What `put_json_node` prints of a number they read back.
-/

namespace UIoT
namespace Shadow

open DecimalDigits (digits value)

/-! ## Scanning numbers -/

/-- The value of a digit in a base up to sixteen. -/
def digitOf (base : Nat) (byte : UInt8) : Option Nat :=
  let value :=
    if 48 ≤ byte ∧ byte ≤ 57 then byte.toNat - 48
    else if 97 ≤ byte ∧ byte ≤ 102 then byte.toNat - 87
    else if 65 ≤ byte ∧ byte ≤ 70 then byte.toNat - 55
    else base
  if value < base then some value else none

/-- The values of the digits a text begins with. -/
def digitsOf (base : Nat) : List UInt8 → List Nat
  | [] => []
  | byte :: text =>
      match digitOf base byte with
      | some digit => digit :: digitsOf base text
      | none => []

/-- The number of digits one behind the other. -/
def numeral (base : Nat) (digits : List Nat) : Nat :=
  digits.foldl (fun value digit => value * base + digit) 0

/-- Whether a sign says that a number is negative, and what follows it. -/
def signOf : List UInt8 → Bool × List UInt8
  | 45 :: text => (true, text)
  | 43 :: text => (false, text)
  | text => (false, text)

/-- A number in the base its beginning tells. -/
def scanNumber : List UInt8 → Option Nat
  | 48 :: 120 :: text => some (numeral 16 (digitsOf 16 text))
  | 48 :: 88 :: text => some (numeral 16 (digitsOf 16 text))
  | 48 :: text => some (numeral 8 (digitsOf 8 text))
  | text =>
      match digitsOf 10 text with
      | [] => none
      | digits => some (numeral 10 digits)

/-- `sscanf` with `%i`: a number with its sign, cut off at the bounds of
`long`. -/
def sscanfInt (text : List UInt8) : Option Int :=
  let (negative, text) := signOf (text.dropWhile isSpace)
  (scanNumber text).map fun number : Nat =>
    if negative then max (-2 ^ 63) (-number) else min (2 ^ 63 - 1) number

/-- `LITE_get_int32` -/
def liteGetInt32 (src : List UInt8) : Option Int32 :=
  (sscanfInt src).map Int32.ofInt

/-- `LITE_get_int16` -/
def liteGetInt16 (src : List UInt8) : Option Int16 :=
  (sscanfInt src).map Int16.ofInt

/-- `LITE_get_int8`, through 16 bits. -/
def liteGetInt8 (src : List UInt8) : Option Int8 :=
  (liteGetInt16 src).map Int16.toInt8

/-- `LITE_get_uint32` -/
def liteGetUint32 (src : List UInt8) : Option UInt32 := sscanfUint32 src

/-- `LITE_get_uint16`: what is stored are the low bits of the number. -/
def liteGetUint16 (src : List UInt8) : Option UInt16 :=
  (sscanfUint32 src).map UInt32.toUInt16

/-- `LITE_get_uint8`, through 16 bits. -/
def liteGetUint8 (src : List UInt8) : Option UInt8 :=
  (liteGetUint16 src).map UInt16.toUInt8

/-- `LITE_get_boolean` -/
def liteGetBoolean (src : List UInt8) : Bool := !(src == ascii "0")

/-! ## Finding a value -/

/-- `find_value_if_key_match` takes the text for null. -/
def NullLike (text : List UInt8) : Prop :=
  ascii "null" <+: text ∨ ascii "NULL" <+: text

instance (text : List UInt8) : Decidable (NullLike text) :=
  inferInstanceAs (Decidable (_ ∨ _))

/-- A text found under the key is the value unless it looks like null. -/
theorem findValueIfKeyMatch_filter (copied : Bool) (pJsonDoc : List UInt8)
    (property : DeviceProperty) :
    findValueIfKeyMatch copied pJsonDoc property =
      (Json.liteJsonCopyOf copied property.key.bytes pJsonDoc).filter
        fun text => ¬NullLike text := by
  unfold findValueIfKeyMatch
  cases Json.liteJsonCopyOf copied property.key.bytes pJsonDoc with
  | none => rfl
  | some text =>
      dsimp only
      rw [Option.filter_some]
      by_cases null : NullLike text
      · have same : ascii "null" <+: text ∨ ascii "NULL" <+: text := null
        rw [if_pos same, if_neg (by simpa using null)]
      · have other : ¬(ascii "null" <+: text ∨ ascii "NULL" <+: text) := null
        rw [if_neg other, if_pos (by simpa using null)]

/-! ## Updating a property -/

/-- `JsonDataType` -/
inductive JsonDataType
  | jint32
  | jint16
  | jint8
  | juint32
  | juint16
  | juint8
  | jfloat
  | jdouble
  | jbool
  | jstring
  | jobject
  deriving DecidableEq, Repr

/-- The type of the data of a property. -/
def PropertyData.type : PropertyData → JsonDataType
  | jint32 _ => .jint32
  | jint16 _ => .jint16
  | jint8 _ => .jint8
  | juint32 _ => .juint32
  | juint16 _ => .juint16
  | juint8 _ => .juint8
  | jfloat _ => .jfloat
  | jdouble _ => .jdouble
  | jbool _ => .jbool
  | jstring _ => .jstring
  | jobject _ => .jobject

/-- A scanned value is stored; where nothing was scanned the old one stays. -/
def stored {α : Type} (old : PropertyData) (data : α → PropertyData) :
    Option α → PropertyData × IoTError
  | some value => (data value, .successRet)
  | none => (old, .failureRet)

/-- `IOT_Shadow_Direct_Update_Value` on the data of a property; of a scanned
floating-point value `readFloat` tells what `%f` prints. -/
def iotShadowDirectUpdateValue (readFloat : List UInt8 → Option CString)
    (text : List UInt8) (data : PropertyData) : PropertyData × IoTError :=
  match data.type with
  | .jbool => (.jbool (liteGetBoolean text), .successRet)
  | .jint32 => stored data .jint32 (liteGetInt32 text)
  | .jint16 => stored data .jint16 (liteGetInt16 text)
  | .jint8 => stored data .jint8 (liteGetInt8 text)
  | .juint32 => stored data .juint32 (liteGetUint32 text)
  | .juint16 => stored data .juint16 (liteGetUint16 text)
  | .juint8 => stored data .juint8 (liteGetUint8 text)
  | .jfloat => stored data .jfloat (readFloat text)
  | .jdouble => stored data .jdouble (readFloat text)
  | .jstring => (data, .successRet)
  | .jobject => (data, .successRet)

/-! ## Printed numbers -/

theorem decimal_natCast (number : Nat) :
    decimal number = digits number := by
  unfold decimal digits ascii
  change ((Nat.repr number).toList.map _) = _
  rw [Nat.toList_repr]

theorem decimal_neg {number : Nat} (positive : 0 < number) :
    decimal (-number) = 45 :: digits number := by
  obtain ⟨below, rfl⟩ := Nat.exists_eq_succ_of_ne_zero
    (Nat.ne_of_gt positive)
  unfold decimal digits ascii
  change (("-" ++ Nat.repr below.succ).toList.map _) = _
  rw [String.toList_append, Nat.toList_repr]
  rfl

/-- A negative number is printed with a sign. -/
theorem decimal_of_neg {number : Int} (negative : number < 0) :
    decimal number = 45 :: digits number.natAbs := by
  rw [← decimal_neg (by omega : 0 < number.natAbs)]
  congr 1
  omega

/-- A number that is not negative is printed as its digits. -/
theorem decimal_of_nonneg {number : Int} (natural : 0 ≤ number) :
    decimal number = digits number.natAbs := by
  rw [← decimal_natCast]
  congr 1
  omega

/-- Every integer is printed as a number that stands for it. -/
theorem decimal_integer (integer : Int) :
    ∃ number : JsonSyntax.Number, number.bytes = decimal integer ∧
      number.value = integer := by
  have leading : (digits integer.natAbs) = [48] ∨
      (digits integer.natAbs).head? ≠ some 48 := by
    by_cases zero : integer.natAbs = 0
    · rw [zero]
      exact .inl (by decide)
    · exact .inr (DecimalDigits.digits_head zero)
  let number : JsonSyntax.Number := ⟨decide (integer < 0),
    ⟨digits integer.natAbs, DecimalDigits.digits_ne_nil _,
      DecimalDigits.digits_range _⟩, leading, none, none⟩
  have whole : number.whole.number = integer.natAbs :=
    DecimalDigits.value_digits _
  have signed : number.signed = integer := by
    unfold JsonSyntax.Number.signed
    rw [whole]
    by_cases negative : integer < 0
    · rw [if_pos (decide_eq_true negative)]
      omega
    · rw [if_neg (by simpa [number] using negative)]
      omega
  refine ⟨number, ?_, ?_⟩
  · rw [JsonSyntax.Number.bytes_of_integer rfl rfl]
    by_cases negative : integer < 0
    · rw [if_pos (decide_eq_true negative), decimal_of_neg negative]
      rfl
    · rw [if_neg (by simpa [number] using negative),
        decimal_of_nonneg (by omega)]
      rfl
  · rw [JsonSyntax.Number.value_of_integer rfl rfl, signed]

theorem length_decimal_le {number : Int} {count : Nat} (positive : 0 < count)
    (small : number.natAbs < 10 ^ count) :
    (decimal number).length ≤ count + 1 := by
  have bound := DecimalDigits.length_digits_le positive small
  by_cases negative : number < 0
  · rw [decimal_of_neg negative, List.length_cons]
    omega
  · rw [decimal_of_nonneg (by omega)]
    omega

/-- A digit is neither white space nor a sign. -/
theorem digit_plain {byte : UInt8} (range : 48 ≤ byte ∧ byte ≤ 57) :
    isSpace byte = false ∧ byte ≠ 45 ∧ byte ≠ 43 ∧
      digitOf 10 byte = some (byte.toNat - 48) := by
  have all : ∀ index : Fin 10,
      isSpace (UInt8.ofNat (48 + index.val)) = false ∧
        UInt8.ofNat (48 + index.val) ≠ 45 ∧
        UInt8.ofNat (48 + index.val) ≠ 43 ∧
        digitOf 10 (UInt8.ofNat (48 + index.val)) =
          some ((UInt8.ofNat (48 + index.val)).toNat - 48) := by
    decide +kernel
  have lower := UInt8.le_iff_toNat_le.mp range.1
  have upper := UInt8.le_iff_toNat_le.mp range.2
  have lower : 48 ≤ byte.toNat := lower
  have upper : byte.toNat ≤ 57 := upper
  have index := all ⟨byte.toNat - 48, by omega⟩
  rwa [show 48 + (byte.toNat - 48) = byte.toNat by omega,
    UInt8.ofNat_toNat] at index

theorem digitsOf_digits {bytes : List UInt8}
    (range : ∀ byte ∈ bytes, 48 ≤ byte ∧ byte ≤ 57) :
    digitsOf 10 bytes = bytes.map fun byte => byte.toNat - 48 := by
  induction bytes with
  | nil => rfl
  | cons byte bytes inductionHypothesis =>
      obtain ⟨first, rest⟩ := List.forall_mem_cons.mp range
      rw [digitsOf, (digit_plain first).2.2.2]
      exact congrArg _ (inductionHypothesis rest)

theorem numeral_of_range {bytes : List UInt8}
    (range : ∀ byte ∈ bytes, 48 ≤ byte ∧ byte ≤ 57) :
    numeral 10 (digitsOf 10 bytes) = value 0 bytes := by
  rw [digitsOf_digits range, numeral, List.foldl_map]
  rfl

/-- Digits that do not begin with a zero are scanned in base ten. -/
theorem scanNumber_of_range {bytes : List UInt8} (nonempty : bytes ≠ [])
    (head : bytes.head? ≠ some 48)
    (range : ∀ byte ∈ bytes, 48 ≤ byte ∧ byte ≤ 57) :
    scanNumber bytes = some (value 0 bytes) := by
  have whole := numeral_of_range range
  obtain ⟨first, rest, rfl⟩ := List.exists_cons_of_ne_nil nonempty
  have first_ne : first ≠ 48 := fun same => head (by rw [same]; rfl)
  have digit := digit_plain (range first (List.mem_cons_self ..))
  have begins : digitsOf 10 (first :: rest) =
      (first.toNat - 48) :: digitsOf 10 rest := by
    rw [digitsOf, digit.2.2.2]
  unfold scanNumber
  split
  · rename_i same
    exact absurd (List.cons.inj same).1 first_ne
  · rename_i same
    exact absurd (List.cons.inj same).1 first_ne
  · rename_i same
    exact absurd (List.cons.inj same).1 first_ne
  · rw [begins] at whole ⊢
    exact congrArg some whole

/-- Only a zero makes a printed number look like one in another base. -/
theorem scanNumber_digits (number : Nat) :
    scanNumber (digits number) = some number := by
  by_cases zero : number = 0
  · rw [zero]
    decide +kernel
  · have scanned := scanNumber_of_range (DecimalDigits.digits_ne_nil number)
      (DecimalDigits.digits_head zero) (DecimalDigits.digits_range number)
    rw [scanned, DecimalDigits.value_digits]

/-- In front of digits there is neither white space nor a sign. -/
theorem signOf_of_range {bytes : List UInt8} (nonempty : bytes ≠ [])
    (range : ∀ byte ∈ bytes, 48 ≤ byte ∧ byte ≤ 57) :
    signOf (bytes.dropWhile isSpace) = (false, bytes) := by
  obtain ⟨first, rest, rfl⟩ := List.exists_cons_of_ne_nil nonempty
  obtain ⟨space, minus, plus, -⟩ :=
    digit_plain (range first (List.mem_cons_self ..))
  rw [List.dropWhile_cons, if_neg (by simp [space])]
  unfold signOf
  split
  · rename_i same
    exact absurd (List.cons.inj same).1 minus
  · rename_i same
    exact absurd (List.cons.inj same).1 plus
  · rfl

theorem signOf_digits (number : Nat) :
    signOf ((digits number).dropWhile isSpace) = (false, digits number) :=
  signOf_of_range (DecimalDigits.digits_ne_nil number)
    (DecimalDigits.digits_range number)

/-- A number is scanned with its sign. -/
theorem sscanfInt_signed {bytes : List UInt8} (nonempty : bytes ≠ [])
    (range : ∀ byte ∈ bytes, 48 ≤ byte ∧ byte ≤ 57) {number : Nat}
    (scanned : scanNumber bytes = some number) (negative : Bool) :
    sscanfInt ((if negative then [45] else []) ++ bytes) =
      some (if negative then max (-2 ^ 63) (-(number : Int))
        else min (2 ^ 63 - 1) (number : Int)) := by
  unfold sscanfInt
  cases negative with
  | true =>
      have sign : signOf ((45 :: bytes).dropWhile isSpace) = (true, bytes) :=
        rfl
      rw [if_pos rfl, List.singleton_append, sign]
      dsimp only
      rw [scanned, Option.map_some]
  | false =>
      rw [if_neg (by decide), List.nil_append, signOf_of_range nonempty range]
      dsimp only
      rw [scanned, Option.map_some]

/-- A printed number is scanned again. -/
theorem sscanfInt_decimal (number : Int) (lower : -2 ^ 63 ≤ number)
    (upper : number < 2 ^ 63) : sscanfInt (decimal number) = some number := by
  have scanned := sscanfInt_signed (DecimalDigits.digits_ne_nil number.natAbs)
    (DecimalDigits.digits_range number.natAbs)
    (scanNumber_digits number.natAbs)
  by_cases negative : number < 0
  · rw [decimal_of_neg negative]
    refine (scanned true).trans ?_
    rw [if_pos rfl]
    congr 1
    omega
  · rw [decimal_of_nonneg (by omega)]
    refine (scanned false).trans ?_
    rw [if_neg (by decide)]
    congr 1
    omega

theorem sscanfUint32_eq (text : List UInt8) :
    sscanfUint32 text =
      let (negative, text) := signOf (text.dropWhile isSpace)
      match text.takeWhile fun byte => 48 ≤ byte && byte ≤ 57 with
      | [] => none
      | digits =>
          let number := value 0 digits
          if number ≥ 2 ^ 64 then some (UInt32.ofNat (2 ^ 64 - 1))
          else if negative then some (UInt32.ofNat (2 ^ 64 - number))
          else some (UInt32.ofNat number) := by
  unfold sscanfUint32 signOf
  rfl

/-- A printed number without a sign is scanned again. -/
theorem sscanfUint32_decimal (number : Nat) (small : number < 2 ^ 64) :
    sscanfUint32 (decimal number) = some (UInt32.ofNat number) := by
  have nonempty := DecimalDigits.digits_ne_nil number
  have range := DecimalDigits.digits_range number
  have whole := DecimalDigits.value_digits number
  have all : ∀ byte ∈ digits number, (48 ≤ byte && byte ≤ 57) = true := by
    simpa using range
  rw [decimal_natCast, sscanfUint32_eq, signOf_digits]
  dsimp only
  rw [List.takeWhile_eq_self_iff.mpr all]
  split
  · rename_i empty
    exact absurd empty nonempty
  · rw [whole, if_neg (by omega), if_neg (by decide)]

/-! ## Restoring data -/

/-- The data is a number or a boolean. -/
def PropertyData.Numeric (data : PropertyData) : Prop :=
  match data with
  | jint32 _ | jint16 _ | jint8 _ | juint32 _ | juint16 _ | juint8 _
  | jbool _ => True
  | _ => False

/-- The text of the value in a document, a string without its quotes. -/
def PropertyData.text : PropertyData → List UInt8
  | jint32 value => decimal value.toInt
  | jint16 value => decimal value.toInt
  | jint8 value => decimal value.toInt
  | juint32 value => decimal value.toNat
  | juint16 value => decimal value.toNat
  | juint8 value => decimal value.toNat
  | jfloat printed => printed.bytes
  | jdouble printed => printed.bytes
  | jbool value => decimal (if value then 1 else 0)
  | jstring value => value.bytes
  | jobject value => value.bytes

/-- Numbers and booleans are restored from their texts, in data of their
type. -/
theorem iotShadowDirectUpdateValue_text
    (readFloat : List UInt8 → Option CString) {data old : PropertyData}
    (numeric : data.Numeric) (sameType : old.type = data.type) :
    iotShadowDirectUpdateValue readFloat data.text old =
      (data, .successRet) := by
  unfold iotShadowDirectUpdateValue
  rw [sameType]
  cases data with
  | jint32 value =>
      have lower := value.le_toInt
      have upper := value.toInt_lt
      have read := sscanfInt_decimal value.toInt (by omega)
        (by omega)
      change stored old .jint32 (liteGetInt32 (decimal value.toInt)) = _
      rw [liteGetInt32, read, Option.map_some, Int32.ofInt_toInt]
      rfl
  | jint16 value =>
      have lower := value.le_toInt
      have upper := value.toInt_lt
      have read := sscanfInt_decimal value.toInt (by omega)
        (by omega)
      change stored old .jint16 (liteGetInt16 (decimal value.toInt)) = _
      rw [liteGetInt16, read, Option.map_some, Int16.ofInt_toInt]
      rfl
  | jint8 value =>
      have lower := value.le_toInt
      have upper := value.toInt_lt
      have read := sscanfInt_decimal value.toInt (by omega)
        (by omega)
      change stored old .jint8 (liteGetInt8 (decimal value.toInt)) = _
      rw [liteGetInt8, liteGetInt16, read, Option.map_some, Option.map_some,
        Int16.toInt8_ofInt, Int8.ofInt_toInt]
      rfl
  | juint32 value =>
      have read := sscanfUint32_decimal value.toNat
        (value.toNat_lt.trans (by decide))
      change stored old .juint32 (liteGetUint32 (decimal value.toNat)) = _
      rw [liteGetUint32, read, UInt32.ofNat_toNat]
      rfl
  | juint16 value =>
      have read := sscanfUint32_decimal value.toNat
        (value.toNat_lt.trans (by decide))
      change stored old .juint16 (liteGetUint16 (decimal value.toNat)) = _
      rw [liteGetUint16, read, Option.map_some, UInt32.toUInt16_ofNat',
        UInt16.ofNat_toNat]
      rfl
  | juint8 value =>
      have read := sscanfUint32_decimal value.toNat
        (value.toNat_lt.trans (by decide))
      change stored old .juint8 (liteGetUint8 (decimal value.toNat)) = _
      rw [liteGetUint8, liteGetUint16, read, Option.map_some, Option.map_some,
        UInt32.toUInt16_ofNat', UInt16.toUInt8_ofNat', UInt8.ofNat_toNat]
      rfl
  | jbool value =>
      cases value with
      | true => rfl
      | false => rfl
  | jfloat printed => exact absurd numeric id
  | jdouble printed => exact absurd numeric id
  | jstring value => exact absurd numeric id
  | jobject value => exact absurd numeric id

end Shadow
end UIoT
