import UIoT.Shadow.DocumentNodes

/-!
# The loop over the properties

`shadow_json_set_content` hands the size that remains to `put_json_node`, which
takes the length of the string off it once more, and looks at no answer of it.
Behind half of the buffer the size wraps around, and before that a node is cut
off without a word.
-/

namespace UIoT
namespace Shadow

/-! ## Staying inside -/

/-- What `HAL_Snprintf` prints from an offset on, and the terminator, stay
inside the buffer. -/
def PrintsInside (sizeOfBuffer : Nat) (text : List UInt8) (offset : Int)
    (size : Nat) (formatted : List UInt8) : Prop :=
  Int.bmod size (2 ^ 32) = 0 ∨
    0 ≤ offset ∧
      (halSnprintf text offset.toNat size formatted).1.length < sizeOfBuffer

/-- In `put_json_node` no size wraps around and all that is printed stays inside
the buffer. -/
def PutInside (bufferEnd : Nat) (jsonBuffer : List UInt8) (sizeOfBuffer : Nat)
    (key : CString) (data : Option PropertyData) : Prop :=
  let remainSize := sizeOfPtrDiff sizeOfBuffer jsonBuffer.length
  let printed :=
    halSnprintf jsonBuffer jsonBuffer.length remainSize (keyText key)
  let remainSize' := sizeOfPtrDiff sizeOfBuffer printed.1.length
  jsonBuffer.length ≤ sizeOfBuffer ∧
    (1 < remainSize →
      PrintsInside bufferEnd jsonBuffer jsonBuffer.length remainSize
          (keyText key) ∧
        (checkSnprintfReturn printed.2 remainSize = .successRet →
          printed.1.length ≤ sizeOfBuffer ∧
            (1 < remainSize' →
              PrintsInside bufferEnd printed.1 printed.1.length remainSize'
                (valueText data))))

/-- The same in the loop of `shadow_json_set_content`. -/
def LoopInside (method : Method) (sizeOfBuffer : Nat) :
    List DeviceProperty → List UInt8 → Prop
  | [], _ => True
  | property :: properties, pJsonDoc =>
      let remainSize := sizeOfPtrDiff sizeOfBuffer pJsonDoc.length
      let data := contentData method property
      let next := (putJsonNode pJsonDoc remainSize property.key data).1
      PutInside sizeOfBuffer pJsonDoc remainSize property.key data ∧
        next.length ≤ sizeOfBuffer ∧
        LoopInside method sizeOfBuffer properties next

/-! ## Room -/

/-- With this size the text is printed in whole and with success. -/
def Fits (size : Nat) (text : List UInt8) : Prop :=
  text.length < size ∧ text.length < 2 ^ 31 ∧
    (Int.bmod size (2 ^ 32) < 0 ∨ text.length < Int.bmod size (2 ^ 32))

theorem fits_iff {size : Nat} (small : size < 2 ^ 31) (text : List UInt8) :
    Fits size text ↔ text.length < size := by
  unfold Fits
  rw [bmod_of_lt small]
  omega

/-- A size of zero prints nothing. -/
theorem halSnprintf_zero (text : List UInt8) (offset : Nat)
    (formatted : List UInt8) :
    halSnprintf text offset 0 formatted = (text, printedLength formatted) := by
  unfold halSnprintf printedLength
  exact if_pos (by decide)

theorem halSnprintf_of_fits (text : List UInt8) (offset : Nat) {size : Nat}
    {formatted : List UInt8} (fits : Fits size formatted) :
    halSnprintf text offset size formatted =
      (text.take offset ++ formatted, (formatted.length : Int)) := by
  obtain ⟨-, short, room⟩ := fits
  unfold halSnprintf
  dsimp only
  rw [if_pos short]
  generalize Int.bmod size (2 ^ 32) = len at room
  rw [if_neg (by omega)]
  rcases room with huge | room
  · rw [if_pos huge]
  · have all : formatted.length ≤ len.toNat - 1 := by omega
    rw [if_neg (by omega), List.take_of_length_le all]

theorem checkSnprintfReturn_of_fits {size : Nat} {formatted : List UInt8}
    (fits : Fits size formatted) :
    checkSnprintfReturn formatted.length size = .successRet := by
  obtain ⟨room, short, -⟩ := fits
  have same : ((formatted.length : Int) % 2 ^ 64).toNat =
      formatted.length := by omega
  unfold checkSnprintfReturn
  rw [same, if_neg (Nat.not_le.mpr room), if_neg (by omega)]

/-- What fits is printed inside the buffer from where its size is counted. -/
theorem printsInside_of_fits {sizeOfBuffer size : Nat} {text : List UInt8}
    {offset : Nat} {formatted : List UInt8} (fits : Fits size formatted)
    (inside : offset + size ≤ sizeOfBuffer) :
    PrintsInside sizeOfBuffer text offset size formatted := by
  refine .inr ⟨Int.natCast_nonneg offset, ?_⟩
  have room := fits.1
  rw [Int.toNat_natCast, halSnprintf_of_fits text offset fits,
    List.length_append, List.length_take]
  omega

/-- In an ordinary size whatever is printed stays inside the buffer. -/
theorem printsInside_of_small {sizeOfBuffer size : Nat} {text : List UInt8}
    {offset : Nat} (formatted : List UInt8) (small : size < 2 ^ 31)
    (inside : offset + size ≤ sizeOfBuffer) :
    PrintsInside sizeOfBuffer text offset size formatted := by
  by_cases zero : size = 0
  · exact .inl (by rw [zero]; rfl)
  · refine .inr ⟨Int.natCast_nonneg offset, ?_⟩
    rw [Int.toNat_natCast, halSnprintf_eq text offset formatted small zero,
      List.length_append, List.length_take, List.length_take]
    omega

/-! ## Putting nodes -/

theorem putInside_of_small {bufferEnd sizeOfBuffer : Nat}
    {jsonBuffer : List UInt8} (small : sizeOfBuffer < 2 ^ 31)
    (inside : jsonBuffer.length ≤ sizeOfBuffer)
    (below : sizeOfBuffer ≤ bufferEnd) (key : CString)
    (data : Option PropertyData) :
    PutInside bufferEnd jsonBuffer sizeOfBuffer key data := by
  have room : sizeOfPtrDiff sizeOfBuffer jsonBuffer.length =
      sizeOfBuffer - jsonBuffer.length :=
    sizeOfPtrDiff_of_le inside (small.trans (by decide))
  unfold PutInside
  rw [room]
  refine ⟨inside, fun left => ⟨printsInside_of_small _ (by omega) (by omega),
    fun _ => ?_⟩⟩
  rw [halSnprintf_eq _ _ _ (by omega) (by omega), List.take_length]
  have within : (jsonBuffer ++ (keyText key).take
      (sizeOfBuffer - jsonBuffer.length - 1)).length ≤ sizeOfBuffer := by
    rw [List.length_append, List.length_take]
    omega
  dsimp only
  refine ⟨within, fun _ => ?_⟩
  rw [sizeOfPtrDiff_of_le within (small.trans (by decide))]
  exact printsInside_of_small _ (by omega) (by omega)

/-- A node of which both texts fit is put in whole. -/
theorem put_of_fits {bufferEnd sizeOfBuffer : Nat} {jsonBuffer : List UInt8}
    {key : CString} {data : Option PropertyData}
    (word : sizeOfBuffer < 2 ^ 64) (below : sizeOfBuffer ≤ bufferEnd)
    (keyFits : Fits (sizeOfBuffer - jsonBuffer.length) (keyText key))
    (valueFits : Fits
      (sizeOfBuffer - jsonBuffer.length - (keyText key).length)
      (valueText data)) :
    PutInside bufferEnd jsonBuffer sizeOfBuffer key data ∧
      putJsonNode jsonBuffer sizeOfBuffer key data =
        (jsonBuffer ++ nodeText key data, .successRet) := by
  have keyRoom := keyFits.1
  have valueRoom := valueFits.1
  have some := List.length_pos_iff.mpr (valueText_ne_nil data)
  have room : sizeOfPtrDiff sizeOfBuffer jsonBuffer.length =
      sizeOfBuffer - jsonBuffer.length :=
    sizeOfPtrDiff_of_le (by omega) word
  have later : sizeOfPtrDiff sizeOfBuffer
      (jsonBuffer ++ keyText key).length =
        sizeOfBuffer - jsonBuffer.length - (keyText key).length := by
    rw [List.length_append, sizeOfPtrDiff_of_le (by omega) word]
    omega
  have keyed := halSnprintf_of_fits jsonBuffer jsonBuffer.length keyFits
  have valued := halSnprintf_of_fits (jsonBuffer ++ keyText key)
    (jsonBuffer ++ keyText key).length valueFits
  rw [List.take_length] at keyed valued
  constructor
  · unfold PutInside
    rw [room]
    refine ⟨by omega, fun _ => ⟨printsInside_of_fits keyFits (by omega),
      fun _ => ?_⟩⟩
    rw [keyed]
    dsimp only
    rw [later]
    refine ⟨?_, fun _ => printsInside_of_fits valueFits ?_⟩
    · rw [List.length_append]
      omega
    · rw [List.length_append]
      omega
  · rw [putJsonNode_accepted room (by omega) keyed
      (checkSnprintfReturn_of_fits keyFits) later valued, if_neg (by omega)]
    exact Prod.ext (List.append_assoc ..)
      (checkSnprintfReturn_of_fits valueFits)

/-- As much of a node is put as has room. -/
theorem putJsonNode_length {jsonBuffer : List UInt8} {sizeOfBuffer : Nat}
    (small : sizeOfBuffer < 2 ^ 31)
    (inside : jsonBuffer.length ≤ sizeOfBuffer) (key : CString)
    (data : Option PropertyData) :
    (putJsonNode jsonBuffer sizeOfBuffer key data).1.length =
      jsonBuffer.length + min (nodeText key data).length
        (sizeOfBuffer - jsonBuffer.length - 1) := by
  have named : 0 < (keyText key).length := by simp [keyText, ascii]
  rw [putJsonNode_eq small inside, nodeText, List.length_append]
  split
  · change jsonBuffer.length = _
    omega
  split
  · change (jsonBuffer ++ (keyText key).take
      (sizeOfBuffer - jsonBuffer.length - 1)).length = _
    rw [List.length_append, List.length_take]
    omega
  split
  · change (jsonBuffer ++ keyText key).length = _
    rw [List.length_append]
    omega
  · change (jsonBuffer ++ keyText key ++ (valueText data).take
      (sizeOfBuffer - jsonBuffer.length - (keyText key).length - 1)).length = _
    rw [List.length_append, List.length_append, List.length_take]
    omega

/-! ## The loop -/

/-- What the loop puts when all nodes fit. -/
def loopNodes (method : Method) (properties : List DeviceProperty) :
    List UInt8 :=
  properties.flatMap fun property =>
    nodeText property.key (contentData method property)

/-- Every node fits in what is left of the buffer when the length of the string
is taken off twice. -/
def LoopFits (method : Method) (sizeOfBuffer : Nat) :
    List DeviceProperty → (used : Nat) → Prop
  | [], _ => True
  | property :: properties, used =>
      let key := keyText property.key
      let value := valueText (contentData method property)
      Fits (sizeOfBuffer - used - used) key ∧
        Fits (sizeOfBuffer - used - used - key.length) value ∧
        LoopFits method sizeOfBuffer properties
          (used + key.length + value.length)

/-- One round of the loop, while the string is inside the buffer. -/
theorem setContentLoop_cons {sizeOfBuffer : Nat} {pJsonDoc : List UInt8}
    (word : sizeOfBuffer < 2 ^ 64) (inside : pJsonDoc.length ≤ sizeOfBuffer)
    (method : Method) (property : DeviceProperty)
    (properties : List DeviceProperty) :
    setContentLoop method sizeOfBuffer (property :: properties) pJsonDoc =
      setContentLoop method sizeOfBuffer properties
        (putJsonNode pJsonDoc (sizeOfBuffer - pJsonDoc.length) property.key
          (contentData method property)).1 := by
  rw [← sizeOfPtrDiff_of_le inside word]
  rfl

theorem loopInside_cons {sizeOfBuffer : Nat} {pJsonDoc : List UInt8}
    (word : sizeOfBuffer < 2 ^ 64) (inside : pJsonDoc.length ≤ sizeOfBuffer)
    (method : Method) (property : DeviceProperty)
    (properties : List DeviceProperty) :
    LoopInside method sizeOfBuffer (property :: properties) pJsonDoc ↔
      PutInside sizeOfBuffer pJsonDoc (sizeOfBuffer - pJsonDoc.length)
          property.key (contentData method property) ∧
        (putJsonNode pJsonDoc (sizeOfBuffer - pJsonDoc.length) property.key
          (contentData method property)).1.length ≤ sizeOfBuffer ∧
        LoopInside method sizeOfBuffer properties
          (putJsonNode pJsonDoc (sizeOfBuffer - pJsonDoc.length) property.key
            (contentData method property)).1 := by
  rw [← sizeOfPtrDiff_of_le inside word]
  rfl

/-- Before a node no more than half of the buffer is used. -/
theorem LoopInside.half {method : Method} {sizeOfBuffer : Nat}
    {properties : List DeviceProperty} {pJsonDoc : List UInt8}
    (bounded : LoopInside method sizeOfBuffer properties pJsonDoc)
    (some : properties ≠ []) (word : sizeOfBuffer < 2 ^ 64)
    (inside : pJsonDoc.length ≤ sizeOfBuffer) :
    2 * pJsonDoc.length ≤ sizeOfBuffer := by
  obtain ⟨property, properties, rfl⟩ := List.exists_cons_of_ne_nil some
  rw [loopInside_cons word inside] at bounded
  have below := bounded.1.1
  omega

/-- In an ordinary buffer the two texts of a node fit together. -/
theorem nodeFits_iff {size : Nat} (small : size < 2 ^ 31) (key : CString)
    (data : Option PropertyData) :
    (Fits size (keyText key) ∧
        Fits (size - (keyText key).length) (valueText data)) ↔
      (nodeText key data).length < size := by
  have some := List.length_pos_iff.mpr (valueText_ne_nil data)
  rw [fits_iff small, fits_iff (Nat.lt_of_le_of_lt (Nat.sub_le ..) small),
    nodeText, List.length_append]
  omega

/-- Where every node fits the loop stays inside the buffer and puts them all. -/
theorem loop_of_fits {method : Method} {sizeOfBuffer : Nat}
    (word : sizeOfBuffer < 2 ^ 64) {properties : List DeviceProperty}
    {pJsonDoc : List UInt8} (inside : pJsonDoc.length ≤ sizeOfBuffer)
    (fits : LoopFits method sizeOfBuffer properties pJsonDoc.length) :
    LoopInside method sizeOfBuffer properties pJsonDoc ∧
      setContentLoop method sizeOfBuffer properties pJsonDoc =
        pJsonDoc ++ loopNodes method properties ∧
      (pJsonDoc ++ loopNodes method properties).length ≤ sizeOfBuffer := by
  induction properties generalizing pJsonDoc with
  | nil =>
      have nothing : pJsonDoc ++ loopNodes method [] = pJsonDoc :=
        List.append_nil pJsonDoc
      rw [nothing]
      exact ⟨trivial, rfl, inside⟩
  | cons property properties inductionHypothesis =>
      obtain ⟨keyFits, valueFits, restFits⟩ := fits
      have valueRoom := valueFits.1
      have node_length : (nodeText property.key
          (contentData method property)).length = (keyText property.key).length
            + (valueText (contentData method property)).length :=
        List.length_append
      have next_length : (pJsonDoc ++ nodeText property.key
          (contentData method property)).length = pJsonDoc.length +
            (keyText property.key).length +
            (valueText (contentData method property)).length := by
        rw [List.length_append, node_length, Nat.add_assoc]
      obtain ⟨put, done⟩ := put_of_fits
        (Nat.lt_of_le_of_lt (Nat.sub_le sizeOfBuffer pJsonDoc.length) word)
        (Nat.sub_le sizeOfBuffer pJsonDoc.length) keyFits valueFits
      have below : (pJsonDoc ++ nodeText property.key
          (contentData method property)).length ≤ sizeOfBuffer := by omega
      obtain ⟨insideRest, nodes, length⟩ :=
        inductionHypothesis below (by rwa [next_length])
      have all : pJsonDoc ++ loopNodes method (property :: properties) =
          pJsonDoc ++ nodeText property.key (contentData method property) ++
            loopNodes method properties := by
        rw [loopNodes, List.flatMap_cons, ← List.append_assoc, loopNodes]
      rw [all]
      refine ⟨?_, ?_, length⟩
      · rw [loopInside_cons word inside, done]
        exact ⟨put, below, insideRest⟩
      · rw [setContentLoop_cons word inside, done]
        exact nodes

/-- Without room for a byte the loop puts nothing. -/
theorem setContentLoop_full {method : Method} {sizeOfBuffer : Nat}
    (small : sizeOfBuffer < 2 ^ 31) {properties : List DeviceProperty}
    {pJsonDoc : List UInt8} (inside : pJsonDoc.length ≤ sizeOfBuffer)
    (bounded : LoopInside method sizeOfBuffer properties pJsonDoc)
    (full : sizeOfBuffer - pJsonDoc.length - pJsonDoc.length ≤ 1) :
    setContentLoop method sizeOfBuffer properties pJsonDoc = pJsonDoc := by
  have word : sizeOfBuffer < 2 ^ 64 := small.trans (by decide)
  induction properties with
  | nil => rfl
  | cons property properties inductionHypothesis =>
      rw [loopInside_cons word inside] at bounded
      rw [setContentLoop_cons word inside]
      obtain ⟨⟨within, -⟩, -, rest⟩ := bounded
      have nothing := (putJsonNode_eq
        (Nat.lt_of_le_of_lt (Nat.sub_le ..) small) within property.key
        (contentData method property)).trans (if_pos full)
      rw [nothing] at rest ⊢
      exact inductionHypothesis rest

theorem loopInside_full {method : Method} {sizeOfBuffer : Nat}
    (small : sizeOfBuffer < 2 ^ 31) {properties : List DeviceProperty}
    {pJsonDoc : List UInt8} (half : 2 * pJsonDoc.length ≤ sizeOfBuffer)
    (full : sizeOfBuffer - pJsonDoc.length - pJsonDoc.length ≤ 1) :
    LoopInside method sizeOfBuffer properties pJsonDoc := by
  have inside : pJsonDoc.length ≤ sizeOfBuffer := by omega
  have size : sizeOfBuffer - pJsonDoc.length < 2 ^ 31 :=
    Nat.lt_of_le_of_lt (Nat.sub_le ..) small
  induction properties with
  | nil => trivial
  | cons property properties inductionHypothesis =>
      have nothing := (putJsonNode_eq size (by omega) property.key
        (contentData method property)).trans (if_pos full)
      rw [loopInside_cons (small.trans (by decide)) inside, nothing]
      exact ⟨putInside_of_small size (by omega) (Nat.sub_le ..) _ _, inside,
        inductionHypothesis⟩

/-- Where a node does not fit and no size wraps around, nodes are missing, and
more is left of the buffer than was used in front of them. -/
theorem setContentLoop_stopped {method : Method} {sizeOfBuffer : Nat}
    (small : sizeOfBuffer < 2 ^ 31) {properties : List DeviceProperty}
    {pJsonDoc : List UInt8} (inside : pJsonDoc.length ≤ sizeOfBuffer)
    (bounded : LoopInside method sizeOfBuffer properties pJsonDoc)
    (stopped : ¬LoopFits method sizeOfBuffer properties pJsonDoc.length) :
    let content := setContentLoop method sizeOfBuffer properties pJsonDoc
    content.length < pJsonDoc.length + (loopNodes method properties).length ∧
      pJsonDoc.length ≤ content.length ∧
      pJsonDoc.length + content.length ≤ sizeOfBuffer ∧
      (2 * pJsonDoc.length ≠ sizeOfBuffer →
        pJsonDoc.length + content.length < sizeOfBuffer) := by
  induction properties generalizing pJsonDoc with
  | nil => exact absurd trivial stopped
  | cons property properties inductionHypothesis =>
      have word : sizeOfBuffer < 2 ^ 64 := small.trans (by decide)
      have size : sizeOfBuffer - pJsonDoc.length < 2 ^ 31 :=
        Nat.lt_of_le_of_lt (Nat.sub_le ..) small
      have named : 0 < (nodeText property.key
          (contentData method property)).length := by
        simp [nodeText, keyText, ascii]
      have nodes_length : (loopNodes method (property :: properties)).length =
          (nodeText property.key (contentData method property)).length +
            (loopNodes method properties).length := by
        rw [loopNodes, List.flatMap_cons, List.length_append, loopNodes]
      rw [loopInside_cons word inside] at bounded
      rw [setContentLoop_cons word inside]
      obtain ⟨⟨within, -⟩, below, rest⟩ := bounded
      have length := putJsonNode_length size within property.key
        (contentData method property)
      by_cases fits : (nodeText property.key
          (contentData method property)).length <
            sizeOfBuffer - pJsonDoc.length - pJsonDoc.length
      · have put := putJsonNode_fits size property.key
          (contentData method property)
          (by omega : pJsonDoc.length + _ < sizeOfBuffer - pJsonDoc.length)
        have both := (nodeFits_iff
          (Nat.lt_of_le_of_lt (Nat.sub_le ..) size) property.key
          (contentData method property)).mpr fits
        have later : ¬LoopFits method sizeOfBuffer properties
            (putJsonNode pJsonDoc (sizeOfBuffer - pJsonDoc.length) property.key
              (contentData method property)).1.length := by
          intro restFits
          refine stopped ⟨both.1, both.2, ?_⟩
          rwa [put, List.length_append, nodeText, List.length_append,
            ← Nat.add_assoc] at restFits
        obtain ⟨missing, grown, used, -⟩ := inductionHypothesis below rest later
        refine ⟨?_, ?_, ?_, fun _ => ?_⟩ <;> omega
      · have full : sizeOfBuffer - (putJsonNode pJsonDoc
            (sizeOfBuffer - pJsonDoc.length) property.key
              (contentData method property)).1.length -
            (putJsonNode pJsonDoc (sizeOfBuffer - pJsonDoc.length) property.key
              (contentData method property)).1.length ≤ 1 := by omega
        have same := setContentLoop_full small below rest full
        dsimp only
        rw [same]
        refine ⟨?_, ?_, ?_, fun _ => ?_⟩ <;> omega

end Shadow
end UIoT
