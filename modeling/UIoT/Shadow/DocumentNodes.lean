import UIoT.Shadow.Document

/-!
# The nodes of a document

`put_json_node` appends a node to the string in the buffer, the key first and
the value behind it.  In a buffer of an ordinary size it reports a success
exactly where the whole of the node, with the terminator, has room.
-/

namespace UIoT
namespace Shadow

/-! ## Printing into a buffer -/

/-- What `put_json_node` prints in front of a value. -/
def keyText (key : CString) : List UInt8 :=
  ascii "\"" ++ key.bytes ++ ascii "\":"

/-- What `put_json_node` prints of a value. -/
def valueText (data : Option PropertyData) : List UInt8 :=
  (data.map PropertyData.printed).getD (ascii "null,")

/-- A node as `put_json_node` prints it. -/
def nodeText (key : CString) (data : Option PropertyData) : List UInt8 :=
  keyText key ++ valueText data

/-- The `int` a size is turned into. -/
theorem bmod_of_lt {size : Nat} (small : size < 2 ^ 31) :
    Int.bmod size (2 ^ 32) = size := by
  have bound : (size : Int) < 2 ^ 31 := by exact_mod_cast small
  rw [Int.bmod_def]
  omega

/-- The result of printing: the length of the whole text, if that is an
`int`. -/
def printedLength (formatted : List UInt8) : Int :=
  if formatted.length < 2 ^ 31 then formatted.length else -1

/-- As much is printed as has room in front of a terminator. -/
theorem halSnprintf_eq (text : List UInt8) (offset : Nat) {size : Nat}
    (formatted : List UInt8) (small : size < 2 ^ 31) (positive : size ≠ 0) :
    halSnprintf text offset size formatted =
      (text.take offset ++ formatted.take (size - 1),
        printedLength formatted) := by
  unfold halSnprintf printedLength
  dsimp only
  rw [bmod_of_lt small, if_neg (by omega), if_neg (by omega),
    Int.toNat_natCast]

/-- A result is accepted exactly where what was formatted fits. -/
theorem checkSnprintfReturn_iff {size : Nat} (formatted : List UInt8)
    (small : size < 2 ^ 31) :
    checkSnprintfReturn (printedLength formatted) size = .successRet ↔
      formatted.length < size := by
  unfold checkSnprintfReturn printedLength
  by_cases short : formatted.length < 2 ^ 31
  · have same : ((formatted.length : Int) % 2 ^ 64).toNat =
        formatted.length := by omega
    rw [if_pos short, same]
    by_cases fits : formatted.length < size
    · rw [if_neg (Nat.not_le.mpr fits), if_neg (by omega)]
      exact iff_of_true rfl fits
    · rw [if_pos (Nat.not_lt.mp fits)]
      exact iff_of_false nofun fits
  · rw [if_neg short]
    have huge : size ≤ ((-1 : Int) % 2 ^ 64).toNat :=
      Nat.le_trans (Nat.le_of_lt small) (by decide)
    rw [if_pos huge]
    exact iff_of_false nofun fun fits => short (fits.trans small)

/-! ## Putting a node -/

theorem valueText_ne_nil (data : Option PropertyData) :
    valueText data ≠ [] := by
  unfold valueText
  cases data with
  | none => decide
  | some data =>
      cases data <;> exact List.append_ne_nil_of_right_ne_nil _ (by decide)

/-- A node ends behind a key that is not accepted. -/
theorem putJsonNode_refused {jsonBuffer buffer : List UInt8}
    {sizeOfBuffer remainSize : Nat} {key : CString} {result : Int}
    (data : Option PropertyData)
    (room : sizeOfPtrDiff sizeOfBuffer jsonBuffer.length = remainSize)
    (more : ¬remainSize ≤ 1)
    (printed : halSnprintf jsonBuffer jsonBuffer.length remainSize
      (keyText key) = (buffer, result))
    (refused : checkSnprintfReturn result remainSize ≠ .successRet) :
    putJsonNode jsonBuffer sizeOfBuffer key data =
      (buffer, checkSnprintfReturn result remainSize) := by
  have keyed : ascii "\"" ++ key.bytes ++ ascii "\":" = keyText key := rfl
  unfold putJsonNode
  rw [room, keyed]
  refine (if_neg more).trans ?_
  rw [printed]
  split
  rename_i text answer same
  obtain ⟨rfl, rfl⟩ := Prod.mk.inj same
  split
  · rename_i accepted
    exact absurd accepted refused
  · rfl

/-- Behind a key that is accepted the value is printed into the room left. -/
theorem putJsonNode_accepted {jsonBuffer buffer : List UInt8}
    {sizeOfBuffer remainSize left : Nat} {key : CString} {result last : Int}
    {whole : List UInt8} {data : Option PropertyData}
    (room : sizeOfPtrDiff sizeOfBuffer jsonBuffer.length = remainSize)
    (more : ¬remainSize ≤ 1)
    (printed : halSnprintf jsonBuffer jsonBuffer.length remainSize
      (keyText key) = (buffer, result))
    (accepted : checkSnprintfReturn result remainSize = .successRet)
    (later : sizeOfPtrDiff sizeOfBuffer buffer.length = left)
    (printed' : halSnprintf buffer buffer.length left (valueText data) =
      (whole, last)) :
    putJsonNode jsonBuffer sizeOfBuffer key data =
      if left ≤ 1 then (buffer, .errJsonBufferTooSmall)
      else (whole, checkSnprintfReturn last left) := by
  have keyed : ascii "\"" ++ key.bytes ++ ascii "\":" = keyText key := rfl
  have valued : (data.map PropertyData.printed).getD (ascii "null,") =
      valueText data := rfl
  unfold putJsonNode
  rw [room, keyed, valued]
  refine (if_neg more).trans ?_
  rw [printed]
  split
  rename_i text answer same
  obtain ⟨rfl, rfl⟩ := Prod.mk.inj same
  split
  · rw [later]
    by_cases full : left ≤ 1
    · exact (if_pos full).trans (if_pos full).symm
    refine (if_neg full).trans (Eq.trans ?_ (if_neg full).symm)
    conv_lhs => zeta
    rw [printed']
  · rename_i refused
    exact absurd accepted refused

/-- The key is printed where there is room, and the value behind it. -/
theorem putJsonNode_eq {jsonBuffer : List UInt8} {sizeOfBuffer : Nat}
    (small : sizeOfBuffer < 2 ^ 31)
    (inside : jsonBuffer.length ≤ sizeOfBuffer) (key : CString)
    (data : Option PropertyData) :
    let remainSize := sizeOfBuffer - jsonBuffer.length
    putJsonNode jsonBuffer sizeOfBuffer key data =
      if remainSize ≤ 1 then (jsonBuffer, .errJsonBufferTooSmall)
      else if remainSize ≤ (keyText key).length then
        (jsonBuffer ++ (keyText key).take (remainSize - 1),
          checkSnprintfReturn (printedLength (keyText key)) remainSize)
      else if remainSize - (keyText key).length ≤ 1 then
        (jsonBuffer ++ keyText key, .errJsonBufferTooSmall)
      else
        (jsonBuffer ++ keyText key ++
            (valueText data).take (remainSize - (keyText key).length - 1),
          checkSnprintfReturn (printedLength (valueText data))
            (remainSize - (keyText key).length)) := by
  intro remainSize
  have bound : remainSize < 2 ^ 31 := Nat.lt_of_le_of_lt (Nat.sub_le ..) small
  have room : sizeOfPtrDiff sizeOfBuffer jsonBuffer.length = remainSize :=
    sizeOfPtrDiff_of_le inside (small.trans (by decide))
  by_cases full : remainSize ≤ 1
  · unfold putJsonNode
    rw [room]
    exact (if_pos full).trans (if_pos full).symm
  rw [if_neg full]
  have printed := halSnprintf_eq jsonBuffer jsonBuffer.length (keyText key)
    bound (by omega)
  rw [List.take_length] at printed
  have accepted := checkSnprintfReturn_iff (keyText key) bound
  by_cases cut : remainSize ≤ (keyText key).length
  · rw [if_pos cut]
    exact putJsonNode_refused data room full printed
      (mt accepted.mp (Nat.not_lt.mpr cut))
  rw [List.take_of_length_le
    (by omega : (keyText key).length ≤ remainSize - 1)] at printed
  have later : sizeOfPtrDiff sizeOfBuffer (jsonBuffer ++ keyText key).length =
      remainSize - (keyText key).length := by
    rw [sizeOfPtrDiff_of_le _ (small.trans (by decide)), List.length_append]
    · omega
    · rw [List.length_append]
      omega
  have value := halSnprintf_eq (jsonBuffer ++ keyText key)
    (jsonBuffer ++ keyText key).length (valueText data)
    (Nat.lt_of_le_of_lt (Nat.sub_le remainSize (keyText key).length) bound)
    (by omega)
  rw [List.take_length] at value
  rw [if_neg cut]
  exact putJsonNode_accepted room full printed
    (accepted.mpr (Nat.not_le.mp cut)) later value


/-- A node is put with success exactly if it has room with its terminator. -/
theorem putJsonNode_success_iff {jsonBuffer : List UInt8} {sizeOfBuffer : Nat}
    (small : sizeOfBuffer < 2 ^ 31)
    (inside : jsonBuffer.length ≤ sizeOfBuffer) (key : CString)
    (data : Option PropertyData) :
    (putJsonNode jsonBuffer sizeOfBuffer key data).2 = .successRet ↔
      jsonBuffer.length + (nodeText key data).length < sizeOfBuffer := by
  have some := List.length_pos_iff.mpr (valueText_ne_nil data)
  have bound : sizeOfBuffer - jsonBuffer.length < 2 ^ 31 :=
    Nat.lt_of_le_of_lt (Nat.sub_le ..) small
  rw [putJsonNode_eq small inside, nodeText, List.length_append]
  split
  · exact iff_of_false nofun (by omega)
  split
  · rw [checkSnprintfReturn_iff _ bound]
    exact iff_of_false (by omega) (by omega)
  split
  · exact iff_of_false nofun (by omega)
  · rw [checkSnprintfReturn_iff _ (Nat.lt_of_le_of_lt (Nat.sub_le ..) bound)]
    omega

/-- A node that has room is appended. -/
theorem putJsonNode_fits {jsonBuffer : List UInt8} {sizeOfBuffer : Nat}
    (small : sizeOfBuffer < 2 ^ 31) (key : CString)
    (data : Option PropertyData)
    (fits : jsonBuffer.length + (nodeText key data).length < sizeOfBuffer) :
    putJsonNode jsonBuffer sizeOfBuffer key data =
      (jsonBuffer ++ nodeText key data, .successRet) := by
  have inside : jsonBuffer.length ≤ sizeOfBuffer := by omega
  have some := List.length_pos_iff.mpr (valueText_ne_nil data)
  have success := (putJsonNode_success_iff small inside key data).mpr fits
  refine Prod.ext ?_ success
  rw [nodeText, List.length_append] at fits
  rw [putJsonNode_eq small inside, if_neg (by omega), if_neg (by omega),
    if_neg (by omega), List.take_of_length_le (by omega), nodeText,
    List.append_assoc]

end Shadow
end UIoT
