import UIoT.Shadow.DocumentLoop
import UIoT.Shadow.Values

/-!
# Bounds of a document

The three functions that print a document, one behind the other: what they
print stays inside the buffer, no size wraps around and nothing is missing where
all succeed, in buffers that suit the document.
-/

namespace UIoT
namespace Shadow

/-! ## Staying inside -/

/-- In `shadow_json_set_content` no size wraps around and all that is printed
stays inside the buffer. -/
def SetContentInside (pJsonDoc : List UInt8) (sizeOfBuffer : Nat)
    (params : RequestParams) (iteratorAllocated : Bool) : Prop :=
  let remainSize := sizeOfPtrDiff sizeOfBuffer pJsonDoc.length
  pJsonDoc.length ≤ sizeOfBuffer ∧
    match params.method with
    | .get => True
    | .deleteAll =>
        PrintsInside sizeOfBuffer pJsonDoc pJsonDoc.length remainSize
          (ascii "null")
    | method =>
        params.propertyDeltaList.length ≠ 0 → iteratorAllocated = true →
          LoopInside method sizeOfBuffer params.propertyDeltaList.reverse
            pJsonDoc

/-- The same in `shadow_json_finalize`. -/
def FinalizeInside (pJsonDoc : List UInt8) (sizeOfBuffer : Nat)
    (params : RequestParams) (version : UInt32) : Prop :=
  let remainSize := sizeOfPtrDiff sizeOfBuffer pJsonDoc.length
  let tail := documentTail params version
  pJsonDoc.length ≤ sizeOfBuffer ∧
    (1 < remainSize →
      PrintsInside sizeOfBuffer pJsonDoc ((pJsonDoc.length : Int) - tail.1)
        remainSize tail.2)

/-- What stands between the beginning and the end of a document. -/
def documentContent (params : RequestParams) : List UInt8 :=
  match params.method with
  | .get => []
  | .deleteAll => ascii "null"
  | method =>
      params.propertyDeltaList.reverse.flatMap fun property =>
        nodeText property.key (contentData method property)

/-- A document with all properties, the last comma left out. -/
def wholeDocument (params : RequestParams) (version : UInt32) : List UInt8 :=
  let content := documentContent params
  documentHead params ++
    (if content.getLast? = some 44 then content.dropLast else content) ++
    (documentTail params version).2

/-- A document is built without leaving its buffer and without a size that wraps
around, and where all steps succeed it is whole. -/
structure BuildsWhole (pJsonDoc : List UInt8) (sizeOfBuffer : Nat)
    (params : RequestParams) (version : UInt32) (iteratorAllocated : Bool) :
    Prop where
  init : PrintsInside sizeOfBuffer pJsonDoc 0 sizeOfBuffer (documentHead params)
  content :
    let head := (shadowJsonInit pJsonDoc sizeOfBuffer params).1
    SetContentInside head sizeOfBuffer params iteratorAllocated
  finalize :
    let head := (shadowJsonInit pJsonDoc sizeOfBuffer params).1
    let content := shadowJsonSetContent head sizeOfBuffer params
      iteratorAllocated
    content.2 = .successRet →
      FinalizeInside content.1 sizeOfBuffer params version
  whole : ∀ document,
    buildDocument (some pJsonDoc) sizeOfBuffer params version
        iteratorAllocated = .ok document →
      document = wholeDocument params version

/-! ## Beginning and end -/

theorem shadowJsonInit_of_fits {pJsonDoc : List UInt8} {sizeOfBuffer : Nat}
    {params : RequestParams} (fits : Fits sizeOfBuffer (documentHead params)) :
    (shadowJsonInit pJsonDoc sizeOfBuffer params).1 = documentHead params := by
  unfold shadowJsonInit
  rw [halSnprintf_of_fits pJsonDoc 0 fits]
  rfl

theorem shadowJsonInit_of_small {pJsonDoc : List UInt8} {sizeOfBuffer : Nat}
    {params : RequestParams} (small : sizeOfBuffer < 2 ^ 31)
    (nonzero : sizeOfBuffer ≠ 0) :
    (shadowJsonInit pJsonDoc sizeOfBuffer params).1 =
      (documentHead params).take (sizeOfBuffer - 1) := by
  unfold shadowJsonInit
  rw [halSnprintf_eq pJsonDoc 0 _ small nonzero]
  rfl

/-- A version is printed with eleven bytes at most. -/
theorem version_length (version : UInt32) :
    (decimal version.toInt32.toInt).length ≤ 11 := by
  have lower := version.toInt32.le_toInt
  have upper := version.toInt32.toInt_lt
  exact length_decimal_le (by decide : 0 < 10) (by omega)

/-- The end of a document replaces one byte at most, and is a short text. -/
theorem documentTail_bounds (params : RequestParams) (version : UInt32) :
    (documentTail params version).1 ≤ 1 ∧
      0 < (documentTail params version).2.length ∧
      (documentTail params version).2.length ≤ 40 := by
  have short := version_length version
  unfold documentTail
  cases params.method <;> dsimp only <;> (try split) <;>
    simp [ascii] <;> omega

theorem documentHead_length (params : RequestParams) :
    1 < (documentHead params).length ∧ (documentHead params).length ≤ 40 := by
  unfold documentHead
  cases params.method <;> dsimp only <;> (try split) <;> simp [ascii]

/-- The end is printed where a byte has room. -/
theorem shadowJsonFinalize_printed {pJsonDoc : List UInt8}
    {sizeOfBuffer size : Nat} {params : RequestParams} {version : UInt32}
    (remain : sizeOfPtrDiff sizeOfBuffer pJsonDoc.length = size)
    (room : 1 < size) {text : List UInt8} {result : Int}
    (printed : halSnprintf pJsonDoc
      (pJsonDoc.length - (documentTail params version).1) size
        (documentTail params version).2 = (text, result)) :
    shadowJsonFinalize pJsonDoc sizeOfBuffer params version =
      (text, checkSnprintfReturn result size) := by
  -- the printing function must stay folded
  obtain ⟨print, same⟩ : ∃ print, halSnprintf = print := ⟨_, rfl⟩
  unfold shadowJsonFinalize
  rw [remain, same]
  rw [same] at printed
  dsimp only
  rw [if_neg (Nat.not_le.mpr room), printed]

theorem shadowJsonFinalize_full {pJsonDoc : List UInt8} {sizeOfBuffer : Nat}
    (full : sizeOfPtrDiff sizeOfBuffer pJsonDoc.length ≤ 1)
    (params : RequestParams) (version : UInt32) :
    shadowJsonFinalize pJsonDoc sizeOfBuffer params version =
      (pJsonDoc, .errJsonBufferTooSmall) := by
  unfold shadowJsonFinalize
  generalize sizeOfPtrDiff sizeOfBuffer pJsonDoc.length = size at full ⊢
  exact if_pos full

/-- The end of a document that fits is printed over the last bytes. -/
theorem finalize_of_fits {pJsonDoc : List UInt8} {sizeOfBuffer : Nat}
    {params : RequestParams} {version : UInt32}
    (word : sizeOfBuffer < 2 ^ 64) (some : pJsonDoc ≠ [])
    (fits : Fits (sizeOfBuffer - pJsonDoc.length)
      (documentTail params version).2) :
    let tail := documentTail params version
    FinalizeInside pJsonDoc sizeOfBuffer params version ∧
      shadowJsonFinalize pJsonDoc sizeOfBuffer params version =
        (pJsonDoc.take (pJsonDoc.length - tail.1) ++ tail.2, .successRet) := by
  obtain ⟨replaced, positive, -⟩ := documentTail_bounds params version
  have used := List.length_pos_iff.mpr some
  have room := fits.1
  have inside : pJsonDoc.length ≤ sizeOfBuffer := by omega
  have remain := sizeOfPtrDiff_of_le inside word
  have offset : ((pJsonDoc.length : Int) - (documentTail params version).1) =
      ((pJsonDoc.length - (documentTail params version).1 : Nat) : Int) := by
    omega
  constructor
  · unfold FinalizeInside
    dsimp only
    rw [remain, offset]
    exact ⟨inside, fun _ => printsInside_of_fits fits (by omega)⟩
  · rw [shadowJsonFinalize_printed remain (by omega)
      (halSnprintf_of_fits _ _ fits), checkSnprintfReturn_of_fits fits]

/-- In an ordinary buffer the end stays inside, and there is a success only if
it fits. -/
theorem finalize_of_small {pJsonDoc : List UInt8} {sizeOfBuffer : Nat}
    (params : RequestParams) (version : UInt32)
    (small : sizeOfBuffer < 2 ^ 31) (inside : pJsonDoc.length ≤ sizeOfBuffer)
    (some : pJsonDoc ≠ [] ∨ sizeOfBuffer - pJsonDoc.length ≤ 1) :
    FinalizeInside pJsonDoc sizeOfBuffer params version ∧
      ((shadowJsonFinalize pJsonDoc sizeOfBuffer params version).2 =
          .successRet →
        (documentTail params version).2.length <
          sizeOfBuffer - pJsonDoc.length) := by
  obtain ⟨replaced, positive, -⟩ := documentTail_bounds params version
  have remain := sizeOfPtrDiff_of_le inside (small.trans (by decide))
  by_cases full : sizeOfBuffer - pJsonDoc.length ≤ 1
  · constructor
    · unfold FinalizeInside
      rw [remain]
      exact ⟨inside, fun left => absurd full (Nat.not_le.mpr left)⟩
    · rw [shadowJsonFinalize_full (remain.trans_le full)]
      exact nofun
  · have used := List.length_pos_iff.mpr (some.resolve_right full)
    have offset : ((pJsonDoc.length : Int) - (documentTail params version).1) =
        ((pJsonDoc.length - (documentTail params version).1 : Nat) : Int) := by
      omega
    constructor
    · unfold FinalizeInside
      dsimp only
      rw [remain, offset]
      refine ⟨inside, fun _ => .inr ⟨Int.natCast_nonneg _, ?_⟩⟩
      rw [Int.toNat_natCast, halSnprintf_eq _ _ _ (by omega) (by omega),
        List.length_append, List.length_take, List.length_take]
      omega
    · rw [shadowJsonFinalize_printed remain (Nat.not_le.mp full)
        (halSnprintf_eq _ _ _ (by omega) (by omega))]
      exact (checkSnprintfReturn_iff _ (by omega)).mp

/-! ## The content -/

/-- The document lists properties. -/
def Carries (params : RequestParams) : Prop :=
  params.method ≠ .get ∧ params.method ≠ .deleteAll ∧
    params.propertyDeltaList ≠ []

instance (params : RequestParams) : Decidable (Carries params) :=
  inferInstanceAs (Decidable (params.method ≠ .get ∧
    params.method ≠ .deleteAll ∧ params.propertyDeltaList ≠ []))

theorem documentHead_carries {params : RequestParams}
    (carries : Carries params) : (documentHead params).length = 40 := by
  obtain ⟨notGet, notAll, some⟩ := carries
  unfold documentHead
  cases method : params.method with
  | get => exact absurd method notGet
  | deleteAll => exact absurd method notAll
  | _ => simp [some, ascii]

theorem documentTail_carries {params : RequestParams}
    (carries : Carries params) (version : UInt32) :
    (documentTail params version).1 = 1 := by
  obtain ⟨notGet, notAll, some⟩ := carries
  unfold documentTail
  cases method : params.method with
  | get => exact absurd method notGet
  | deleteAll => exact absurd method notAll
  | _ => simp [some]

theorem documentContent_carries {params : RequestParams}
    (carries : Carries params) :
    documentContent params =
      loopNodes params.method params.propertyDeltaList.reverse := by
  obtain ⟨notGet, notAll, -⟩ := carries
  unfold documentContent loopNodes
  cases method : params.method with
  | get => exact absurd method notGet
  | deleteAll => exact absurd method notAll
  | _ => rfl

theorem setContent_carries {params : RequestParams} (carries : Carries params)
    (pJsonDoc : List UInt8) (sizeOfBuffer : Nat) (iteratorAllocated : Bool) :
    shadowJsonSetContent pJsonDoc sizeOfBuffer params iteratorAllocated =
        (if iteratorAllocated then
          (setContentLoop params.method sizeOfBuffer
            params.propertyDeltaList.reverse pJsonDoc, .successRet)
        else (pJsonDoc, .errParamInvalid)) ∧
      (SetContentInside pJsonDoc sizeOfBuffer params iteratorAllocated ↔
        pJsonDoc.length ≤ sizeOfBuffer ∧
          (iteratorAllocated = true → LoopInside params.method sizeOfBuffer
            params.propertyDeltaList.reverse pJsonDoc)) := by
  obtain ⟨notGet, notAll, some⟩ := carries
  have length := mt List.length_eq_zero_iff.mp some
  unfold shadowJsonSetContent SetContentInside
  cases method : params.method with
  | get => exact absurd method notGet
  | deleteAll => exact absurd method notAll
  | _ => cases iteratorAllocated <;> simp [length]

/-- Without properties nothing is put, but for the null of a deletion of all. -/
theorem setContent_plain {params : RequestParams} (plain : ¬Carries params)
    (notAll : params.method ≠ .deleteAll) (pJsonDoc : List UInt8)
    (sizeOfBuffer : Nat) (iteratorAllocated : Bool) :
    shadowJsonSetContent pJsonDoc sizeOfBuffer params iteratorAllocated =
        (pJsonDoc, .successRet) ∧
      (SetContentInside pJsonDoc sizeOfBuffer params iteratorAllocated ↔
        pJsonDoc.length ≤ sizeOfBuffer) ∧
      documentContent params = [] := by
  have empty : params.method ≠ .get → params.propertyDeltaList = [] :=
    fun notGet => by_contra fun some => plain ⟨notGet, notAll, some⟩
  unfold shadowJsonSetContent SetContentInside documentContent
  cases method : params.method with
  | deleteAll => exact absurd method notAll
  | get => simp
  | _ => simp [empty (by rw [method]; decide)]

theorem setContent_deleteAll {params : RequestParams}
    (all : params.method = .deleteAll) {pJsonDoc : List UInt8}
    {sizeOfBuffer size : Nat}
    (remain : sizeOfPtrDiff sizeOfBuffer pJsonDoc.length = size)
    {text : List UInt8} {result : Int}
    (printed : halSnprintf pJsonDoc pJsonDoc.length size (ascii "null") =
      (text, result)) (iteratorAllocated : Bool) :
    shadowJsonSetContent pJsonDoc sizeOfBuffer params iteratorAllocated =
      (text, checkSnprintfReturn result size) := by
  obtain ⟨print, same⟩ : ∃ print, halSnprintf = print := ⟨_, rfl⟩
  unfold shadowJsonSetContent
  rw [all, remain, same]
  rw [same] at printed
  dsimp only
  rw [printed]

theorem setContentInside_deleteAll {params : RequestParams}
    (all : params.method = .deleteAll) (pJsonDoc : List UInt8)
    (sizeOfBuffer : Nat) (iteratorAllocated : Bool) :
    SetContentInside pJsonDoc sizeOfBuffer params iteratorAllocated ↔
      pJsonDoc.length ≤ sizeOfBuffer ∧
        PrintsInside sizeOfBuffer pJsonDoc pJsonDoc.length
          (sizeOfPtrDiff sizeOfBuffer pJsonDoc.length) (ascii "null") := by
  unfold SetContentInside
  rw [all]

theorem documentContent_deleteAll {params : RequestParams}
    (all : params.method = .deleteAll) :
    documentContent params = ascii "null" := by
  unfold documentContent
  rw [all]

/-- Nodes end with a comma. -/
theorem loopNodes_comma {properties : List DeviceProperty}
    (some : properties ≠ []) (method : Method) :
    ∃ front, loopNodes method properties = front ++ [44] := by
  have value : ∀ data : Option PropertyData,
      ∃ front, valueText data = front ++ [44] := by
    intro data
    cases data with
    | none => exact ⟨ascii "null", rfl⟩
    | some data =>
        cases data with
        | jstring text =>
            exact ⟨ascii "\"" ++ text.bytes ++ [34],
              (List.append_assoc _ [34] [44]).symm⟩
        | _ => exact ⟨_, rfl⟩
  obtain ⟨front, last, rfl⟩ := (List.eq_nil_or_concat' properties).resolve_left
    some
  obtain ⟨text, ending⟩ := value (contentData method last)
  refine ⟨loopNodes method front ++ (keyText last.key ++ text), ?_⟩
  rw [loopNodes, List.flatMap_append, List.flatMap_singleton, nodeText, ending,
    loopNodes, List.append_assoc, List.append_assoc]

/-- The end replaces the last byte, a comma, where the document lists
properties.  Where it lists none, it replaces nothing or the brace before it. -/
theorem wholeDocument_eq {params : RequestParams} {version : UInt32}
    (replaced : Carries params ∨ (documentTail params version).1 = 0) :
    let text := documentHead params ++ documentContent params
    let tail := documentTail params version
    wholeDocument params version =
      text.take (text.length - tail.1) ++ tail.2 := by
  dsimp only
  by_cases carries : Carries params
  · obtain ⟨front, nodes⟩ := loopNodes_comma
      (mt List.reverse_eq_nil_iff.mp carries.2.2) params.method
    unfold wholeDocument
    rw [documentContent_carries carries, nodes, documentTail_carries carries]
    simp [← List.append_assoc]
  · have zero := replaced.resolve_left carries
    have last : (documentContent params).getLast? ≠ some 44 := by
      by_cases all : params.method = .deleteAll
      · rw [documentContent_deleteAll all]
        decide
      · rw [(setContent_plain carries all [] 0 true).2.2]
        exact nofun
    unfold wholeDocument
    rw [zero, Nat.sub_zero, List.take_length]
    dsimp only
    rw [if_neg last]

/-! ## Whole documents -/

theorem buildDocument_ok {pJsonDoc head content : List UInt8}
    {sizeOfBuffer : Nat} {params : RequestParams} {version : UInt32}
    {iteratorAllocated : Bool} {ret : IoTError}
    (begun : (shadowJsonInit pJsonDoc sizeOfBuffer params).1 = head)
    (set : shadowJsonSetContent head sizeOfBuffer params iteratorAllocated =
      (content, ret)) (document : List UInt8) :
    buildDocument (some pJsonDoc) sizeOfBuffer params version
        iteratorAllocated = .ok document ↔
      ret = .successRet ∧
        shadowJsonFinalize content sizeOfBuffer params version =
          (document, .successRet) := by
  have first : shadowJsonInit pJsonDoc sizeOfBuffer params =
      (head, .successRet) := Prod.ext begun rfl
  obtain ⟨init, same⟩ : ∃ init, shadowJsonInit = init := ⟨_, rfl⟩
  obtain ⟨finish, last⟩ : ∃ finish, shadowJsonFinalize = finish := ⟨_, rfl⟩
  unfold buildDocument
  rw [same, last]
  rw [same] at first
  dsimp only
  rw [first]
  dsimp only
  rw [set]
  -- a match on a pair, in which only the success goes on
  split
  · rename_i text pair
    obtain ⟨rfl, rfl⟩ := Prod.mk.inj pair
    generalize finish content sizeOfBuffer params version = result
    split
    · simp
    · rename_i failed
      refine iff_of_false nofun ?_
      rintro ⟨-, done⟩
      exact failed (Prod.mk.inj done).2
  · rename_i failed pair
    obtain ⟨rfl, rfl⟩ := Prod.mk.inj pair
    refine iff_of_false nofun ?_
    rintro ⟨success, -⟩
    exact failed success

/-- Where the content fails nothing is built. -/
theorem buildsWhole_of_failure {pJsonDoc head content : List UInt8}
    {sizeOfBuffer : Nat} {params : RequestParams} {version : UInt32}
    {iteratorAllocated : Bool} {ret : IoTError}
    (init : PrintsInside sizeOfBuffer pJsonDoc 0 sizeOfBuffer
      (documentHead params))
    (begun : (shadowJsonInit pJsonDoc sizeOfBuffer params).1 = head)
    (set : shadowJsonSetContent head sizeOfBuffer params iteratorAllocated =
      (content, ret))
    (inside : SetContentInside head sizeOfBuffer params iteratorAllocated)
    (failed : ret ≠ .successRet) :
    BuildsWhole pJsonDoc sizeOfBuffer params version iteratorAllocated where
  init := init
  content := by rwa [begun]
  finalize := by
    dsimp only
    rw [begun, set]
    exact fun success => absurd success failed
  whole document built :=
    absurd ((buildDocument_ok begun set document).mp built).1 failed

/-- Where all of the content is there and the end fits, or the buffer is an
ordinary one, the document is whole. -/
theorem buildsWhole_of_content {pJsonDoc : List UInt8} {sizeOfBuffer : Nat}
    {params : RequestParams} {version : UInt32} {iteratorAllocated : Bool}
    (word : sizeOfBuffer < 2 ^ 64)
    (init : PrintsInside sizeOfBuffer pJsonDoc 0 sizeOfBuffer
      (documentHead params))
    (begun : (shadowJsonInit pJsonDoc sizeOfBuffer params).1 =
      documentHead params)
    (set : shadowJsonSetContent (documentHead params) sizeOfBuffer params
        iteratorAllocated =
      (documentHead params ++ documentContent params, .successRet))
    (inside : SetContentInside (documentHead params) sizeOfBuffer params
      iteratorAllocated)
    (below : (documentHead params ++ documentContent params).length ≤
      sizeOfBuffer)
    (replaced : Carries params ∨ (documentTail params version).1 = 0)
    (fits : sizeOfBuffer < 2 ^ 31 ∨
      Fits (sizeOfBuffer -
          (documentHead params ++ documentContent params).length)
        (documentTail params version).2) :
    BuildsWhole pJsonDoc sizeOfBuffer params version iteratorAllocated := by
  have some : documentHead params ++ documentContent params ≠ [] := by
    have head := (documentHead_length params).1
    intro empty
    rw [(List.append_eq_nil_iff.mp empty).1] at head
    exact absurd head (by decide)
  refine ⟨init, by rwa [begun], ?_, fun document built => ?_⟩
  · dsimp only
    rw [begun, set]
    intro _
    rcases fits with small | fits
    · exact (finalize_of_small _ _ small below (.inl some)).1
    · exact (finalize_of_fits word some fits).1
  · obtain ⟨-, finished⟩ := (buildDocument_ok begun set document).mp built
    have room : Fits (sizeOfBuffer -
          (documentHead params ++ documentContent params).length)
        (documentTail params version).2 := by
      rcases fits with small | fits
      · rw [fits_iff (Nat.lt_of_le_of_lt (Nat.sub_le ..) small)]
        exact (finalize_of_small _ _ small below (.inl some)).2
          (congrArg Prod.snd finished)
      · exact fits
    have printed := (finalize_of_fits word some room).2
    rw [wholeDocument_eq replaced]
    exact congrArg Prod.fst (finished.symm.trans printed)

/-- In an ordinary buffer the document is whole where the content does not
leave room for the end, or else if it is all there. -/
theorem buildsWhole_small_iff {pJsonDoc head content : List UInt8}
    {sizeOfBuffer : Nat} {params : RequestParams} {version : UInt32}
    {iteratorAllocated : Bool} (small : sizeOfBuffer < 2 ^ 31)
    (begun : (shadowJsonInit pJsonDoc sizeOfBuffer params).1 = head)
    (set : shadowJsonSetContent head sizeOfBuffer params iteratorAllocated =
      (content, .successRet))
    (inside : SetContentInside head sizeOfBuffer params iteratorAllocated)
    (below : content.length ≤ sizeOfBuffer)
    (some : content ≠ [] ∨ sizeOfBuffer - content.length ≤ 1) :
    BuildsWhole pJsonDoc sizeOfBuffer params version iteratorAllocated ↔
      ((documentTail params version).2.length <
          sizeOfBuffer - content.length →
        content.take (content.length - (documentTail params version).1) ++
            (documentTail params version).2 =
          wholeDocument params version) := by
  have word : sizeOfBuffer < 2 ^ 64 := small.trans (by decide)
  have positive := (documentTail_bounds params version).2.1
  obtain ⟨bounded, room⟩ := finalize_of_small params version
    small below some
  constructor
  · intro builds fits
    have nonempty : content ≠ [] := some.resolve_right (by omega)
    have printed := (finalize_of_fits word nonempty
      ((fits_iff (Nat.lt_of_le_of_lt (Nat.sub_le ..) small) _).mpr fits)).2
    exact builds.whole _ ((buildDocument_ok begun set _).mpr ⟨rfl, printed⟩)
  · intro whole
    refine ⟨printsInside_of_small _ small (Nat.zero_add _).le, by rwa [begun],
      ?_, fun document built => ?_⟩
    · dsimp only
      rw [begun, set]
      exact fun _ => bounded
    · obtain ⟨-, finished⟩ := (buildDocument_ok begun set document).mp built
      have fits := room (congrArg Prod.snd finished)
      have nonempty : content ≠ [] := some.resolve_right (by omega)
      have printed := (finalize_of_fits word nonempty
        ((fits_iff (Nat.lt_of_le_of_lt (Nat.sub_le ..) small) _).mpr fits)).2
      rw [← whole fits]
      exact congrArg Prod.fst (finished.symm.trans printed)

/-! ## Buffers that suit -/

/-- The buffer suits a document of properties: it has room for two bytes at
most, or every node fits, or it is the one buffer in which no node is begun and
the end does not fit either. -/
def SuitsProperties (sizeOfBuffer : Nat) (params : RequestParams)
    (version : UInt32) : Prop :=
  let head := documentHead params
  let tail := (documentTail params version).2
  sizeOfBuffer ≤ 2 ∨
    (sizeOfBuffer = 2 * head.length ∧ head.length ≤ tail.length) ∨
    (Fits sizeOfBuffer head ∧
      LoopFits params.method sizeOfBuffer params.propertyDeltaList.reverse
        head.length ∧
      (sizeOfBuffer < 2 ^ 31 ∨
        Fits (sizeOfBuffer - (head ++ documentContent params).length) tail))

/-- The buffer suits a document without properties, of which the end replaces
nothing: it is an ordinary one, or each part fits. -/
def SuitsPlain (sizeOfBuffer : Nat) (params : RequestParams)
    (version : UInt32) : Prop :=
  let head := documentHead params
  let content := documentContent params
  sizeOfBuffer < 2 ^ 31 ∨
    (Fits sizeOfBuffer head ∧ Fits (sizeOfBuffer - head.length) content ∧
      Fits (sizeOfBuffer - (head ++ content).length)
        (documentTail params version).2)

/-- The buffer suits the document. -/
def Suits (pJsonDoc : List UInt8) (sizeOfBuffer : Nat)
    (params : RequestParams) (version : UInt32) (iteratorAllocated : Bool) :
    Prop :=
  let head := documentHead params
  let tail := documentTail params version
  (sizeOfBuffer = 0 → pJsonDoc = []) ∧
    if Carries params then
      if iteratorAllocated then SuitsProperties sizeOfBuffer params version
      else sizeOfBuffer < 2 ^ 31 ∨ Fits sizeOfBuffer head
    else if tail.1 = 0 then SuitsPlain sizeOfBuffer params version
    -- the end would replace the brace in front of it
    else sizeOfBuffer ≤ head.length + tail.2.length

/-- In a small buffer the beginning is cut off, and in none the old string
stays. -/
theorem shadowJsonInit_length {pJsonDoc : List UInt8} {sizeOfBuffer : Nat}
    (params : RequestParams) (small : sizeOfBuffer < 2 ^ 31)
    (clear : sizeOfBuffer = 0 → pJsonDoc = []) :
    (shadowJsonInit pJsonDoc sizeOfBuffer params).1.length =
      min (sizeOfBuffer - 1) (documentHead params).length := by
  by_cases zero : sizeOfBuffer = 0
  · subst zero
    rw [clear rfl]
    rfl
  · rw [shadowJsonInit_of_small small zero, List.length_take]

theorem shadowJsonInit_whole {pJsonDoc : List UInt8} {sizeOfBuffer : Nat}
    {params : RequestParams} (small : sizeOfBuffer < 2 ^ 31)
    (room : (documentHead params).length < sizeOfBuffer) :
    (shadowJsonInit pJsonDoc sizeOfBuffer params).1 = documentHead params :=
  shadowJsonInit_of_fits ((fits_iff small _).mpr room)

/-- An empty buffer must hold no string. -/
theorem BuildsWhole.clear {pJsonDoc : List UInt8} {params : RequestParams}
    {version : UInt32} {iteratorAllocated : Bool}
    (builds : BuildsWhole pJsonDoc 0 params version iteratorAllocated) :
    pJsonDoc = [] := by
  have inside := builds.content.1
  exact List.length_eq_zero_iff.mp (Nat.le_zero.mp inside)

/-! ## Documents with properties -/

section Properties

variable {pJsonDoc : List UInt8} {sizeOfBuffer : Nat} {params : RequestParams}
  {version : UInt32}

/-- Where every node fits the document is whole. -/
theorem buildsWhole_of_loopFits (carries : Carries params)
    (word : sizeOfBuffer < 2 ^ 64)
    (headFits : Fits sizeOfBuffer (documentHead params))
    (nodesFit : LoopFits params.method sizeOfBuffer
      params.propertyDeltaList.reverse (documentHead params).length)
    (tailFits : sizeOfBuffer < 2 ^ 31 ∨
      Fits (sizeOfBuffer -
          (documentHead params ++ documentContent params).length)
        (documentTail params version).2) :
    BuildsWhole pJsonDoc sizeOfBuffer params version true := by
  have content := documentContent_carries carries
  obtain ⟨set, inside⟩ :=
    setContent_carries carries (documentHead params) sizeOfBuffer true
  have below : (documentHead params).length ≤ sizeOfBuffer := headFits.1.le
  obtain ⟨bounded, nodes, length⟩ := loop_of_fits word below nodesFit
  rw [if_pos rfl, nodes, ← content] at set
  rw [← content] at length
  exact buildsWhole_of_content word
    (printsInside_of_fits headFits (Nat.zero_add _).le)
    (shadowJsonInit_of_fits headFits) set
    (inside.mpr ⟨below, fun _ => bounded⟩) length (.inl carries) tailFits

/-- Where the first size leaves no room for a byte nothing is put, and no harm
is done if the end fails. -/
theorem buildsWhole_of_full (carries : Carries params)
    (small : sizeOfBuffer < 2 ^ 31) {head : List UInt8}
    (begun : (shadowJsonInit pJsonDoc sizeOfBuffer params).1 = head)
    (half : 2 * head.length ≤ sizeOfBuffer)
    (full : sizeOfBuffer - head.length - head.length ≤ 1)
    (some : head ≠ [] ∨ sizeOfBuffer - head.length ≤ 1)
    (failed : sizeOfBuffer - head.length ≤
      (documentTail params version).2.length) :
    BuildsWhole pJsonDoc sizeOfBuffer params version true := by
  have below : head.length ≤ sizeOfBuffer := by omega
  obtain ⟨set, inside⟩ := setContent_carries carries head sizeOfBuffer true
  have bounded : LoopInside params.method sizeOfBuffer
      params.propertyDeltaList.reverse head := loopInside_full small half full
  rw [if_pos rfl, setContentLoop_full small below bounded full] at set
  refine (buildsWhole_small_iff small begun set
    (inside.mpr ⟨below, fun _ => bounded⟩) below some).mpr fun fits => ?_
  exact absurd fits (Nat.not_lt.mpr failed)

theorem buildsWhole_of_suits (carries : Carries params)
    (word : sizeOfBuffer < 2 ^ 64) (clear : sizeOfBuffer = 0 → pJsonDoc = [])
    (suits : SuitsProperties sizeOfBuffer params version) :
    BuildsWhole pJsonDoc sizeOfBuffer params version true := by
  have positive := (documentTail_bounds params version).2.1
  have named := (documentHead_length params).1
  rcases suits with tiny | ⟨half, long⟩ | ⟨headFits, nodesFit, tailFits⟩
  · have small : sizeOfBuffer < 2 ^ 31 := Nat.lt_of_le_of_lt tiny (by decide)
    have length := shadowJsonInit_length params small clear
    exact buildsWhole_of_full carries small rfl (by omega) (by omega)
      (.inr (by omega)) (by omega)
  · have short := (documentHead_length params).2
    have small : sizeOfBuffer < 2 ^ 31 := by omega
    exact buildsWhole_of_full carries small
      (shadowJsonInit_whole small (by omega)) half.ge (by omega)
      (.inl (List.ne_nil_of_length_pos (by omega))) (by omega)
  · exact buildsWhole_of_loopFits carries word headFits nodesFit tailFits

/-- In an ordinary buffer the document is whole only if the buffer suits it. -/
theorem suits_of_buildsWhole (carries : Carries params)
    (small : sizeOfBuffer < 2 ^ 31)
    (builds : BuildsWhole pJsonDoc sizeOfBuffer params version true) :
    SuitsProperties sizeOfBuffer params version := by
  have short := (documentTail_bounds params version).2.2
  have long := documentHead_carries carries
  have nodes := documentContent_carries carries
  have one := documentTail_carries carries version
  have someReversed := mt List.reverse_eq_nil_iff.mp carries.2.2
  by_cases tiny : sizeOfBuffer ≤ 2
  · exact .inl tiny
  have word : sizeOfBuffer < 2 ^ 64 := small.trans (by decide)
  obtain ⟨head, begun⟩ : ∃ head,
      (shadowJsonInit pJsonDoc sizeOfBuffer params).1 = head := ⟨_, rfl⟩
  obtain ⟨set, inside⟩ := setContent_carries carries head sizeOfBuffer true
  have content := builds.content
  dsimp only at content
  rw [begun] at content
  obtain ⟨below, bounded⟩ := inside.mp content
  have half := (bounded rfl).half someReversed word below
  -- a head that was cut off fills more than half of the buffer
  have whole : head = documentHead params := by
    have printed : head = (documentHead params).take (sizeOfBuffer - 1) := by
      rw [← begun]
      exact shadowJsonInit_of_small small (by omega)
    rw [printed, List.length_take] at half
    rw [printed, List.take_of_length_le (by omega)]
  subst whole
  by_cases fits : LoopFits params.method sizeOfBuffer
      params.propertyDeltaList.reverse (documentHead params).length
  · exact .inr (.inr ⟨(fits_iff small _).mpr (by omega), fits, .inl small⟩)
  obtain ⟨missing, grown, used, more⟩ :=
    setContentLoop_stopped small below (bounded rfl) fits
  rw [if_pos rfl] at set
  generalize setContentLoop params.method sizeOfBuffer
    params.propertyDeltaList.reverse (documentHead params) = text at *
  have wholeText := (buildsWhole_small_iff small begun set content (by omega)
    (.inl (List.ne_nil_of_length_pos (by omega)))).mp builds
  by_cases stuck : sizeOfBuffer = 2 * (documentHead params).length ∧
      (documentHead params).length ≤ (documentTail params version).2.length
  · exact .inr (.inl stuck)
  · have lengths := congrArg List.length (wholeText (by omega))
    rw [wholeDocument_eq (.inl carries), nodes, one, List.length_append,
      List.length_append, List.length_take, List.length_take,
      List.length_append] at lengths
    omega

end Properties

/-! ## Documents without properties -/

section Plain

variable {pJsonDoc : List UInt8} {sizeOfBuffer : Nat} {params : RequestParams}
  {version : UInt32}

/-- Where a property cannot be read the document fails. -/
theorem buildsWhole_of_noIterator (carries : Carries params)
    (clear : sizeOfBuffer = 0 → pJsonDoc = [])
    (suits : sizeOfBuffer < 2 ^ 31 ∨ Fits sizeOfBuffer (documentHead params)) :
    BuildsWhole pJsonDoc sizeOfBuffer params version false := by
  have below : (shadowJsonInit pJsonDoc sizeOfBuffer params).1.length ≤
      sizeOfBuffer := by
    rcases suits with small | fits
    · rw [shadowJsonInit_length params small clear]
      omega
    · rw [shadowJsonInit_of_fits fits]
      exact fits.1.le
  have init : PrintsInside sizeOfBuffer pJsonDoc 0 sizeOfBuffer
      (documentHead params) := by
    rcases suits with small | fits
    · exact printsInside_of_small _ small (Nat.zero_add _).le
    · exact printsInside_of_fits fits (Nat.zero_add _).le
  obtain ⟨set, inside⟩ := setContent_carries carries
    (shadowJsonInit pJsonDoc sizeOfBuffer params).1 sizeOfBuffer false
  exact buildsWhole_of_failure init rfl set
    (inside.mpr ⟨below, nofun⟩) (by decide)

/-- What is put without properties fits. -/
theorem setContent_of_fits (plain : ¬Carries params)
    (word : sizeOfBuffer < 2 ^ 64)
    (below : (documentHead params).length ≤ sizeOfBuffer)
    (fits : Fits (sizeOfBuffer - (documentHead params).length)
      (documentContent params)) (iteratorAllocated : Bool) :
    shadowJsonSetContent (documentHead params) sizeOfBuffer params
          iteratorAllocated =
        (documentHead params ++ documentContent params, .successRet) ∧
      SetContentInside (documentHead params) sizeOfBuffer params
        iteratorAllocated := by
  have remain := sizeOfPtrDiff_of_le below word
  by_cases all : params.method = .deleteAll
  · rw [documentContent_deleteAll all] at fits ⊢
    have printed := halSnprintf_of_fits (documentHead params)
      (documentHead params).length fits
    rw [List.take_length] at printed
    rw [setContent_deleteAll all remain printed,
      checkSnprintfReturn_of_fits fits, setContentInside_deleteAll all, remain]
    exact ⟨rfl, below, printsInside_of_fits fits (by omega)⟩
  · obtain ⟨set, inside, empty⟩ := setContent_plain plain all
      (documentHead params) sizeOfBuffer iteratorAllocated
    rw [empty, List.append_nil, inside]
    exact ⟨set, below⟩

/-- Where all parts fit the document is whole. -/
theorem buildsWhole_of_fits (plain : ¬Carries params)
    (zero : (documentTail params version).1 = 0)
    (word : sizeOfBuffer < 2 ^ 64)
    (headFits : Fits sizeOfBuffer (documentHead params))
    (contentFits : Fits (sizeOfBuffer - (documentHead params).length)
      (documentContent params))
    (tailFits : sizeOfBuffer < 2 ^ 31 ∨
      Fits (sizeOfBuffer -
          (documentHead params ++ documentContent params).length)
        (documentTail params version).2) (iteratorAllocated : Bool) :
    BuildsWhole pJsonDoc sizeOfBuffer params version iteratorAllocated := by
  have headRoom := headFits.1
  have contentRoom := contentFits.1
  have init : PrintsInside sizeOfBuffer pJsonDoc 0 sizeOfBuffer
      (documentHead params) :=
    printsInside_of_fits headFits (Nat.zero_add _).le
  have set := setContent_of_fits plain word headRoom.le contentFits
    iteratorAllocated
  refine buildsWhole_of_content word init (shadowJsonInit_of_fits headFits)
    set.1 set.2 ?_ (.inr zero) tailFits
  rw [List.length_append]
  omega

/-- In an ordinary buffer a document of which the end replaces nothing is
whole. -/
theorem buildsWhole_of_small (plain : ¬Carries params)
    (zero : (documentTail params version).1 = 0)
    (small : sizeOfBuffer < 2 ^ 31) (clear : sizeOfBuffer = 0 → pJsonDoc = [])
    (iteratorAllocated : Bool) :
    BuildsWhole pJsonDoc sizeOfBuffer params version iteratorAllocated := by
  have word : sizeOfBuffer < 2 ^ 64 := small.trans (by decide)
  have positive := (documentTail_bounds params version).2.1
  have length := shadowJsonInit_length params small clear
  have init : PrintsInside sizeOfBuffer pJsonDoc 0 sizeOfBuffer
      (documentHead params) :=
    printsInside_of_small _ small (Nat.zero_add _).le
  by_cases fits : (documentHead params ++ documentContent params).length <
      sizeOfBuffer
  · rw [List.length_append] at fits
    refine buildsWhole_of_fits plain zero word ((fits_iff small _).mpr ?_)
      ((fits_iff ?_ _).mpr ?_) (.inl small) iteratorAllocated
    all_goals omega
  obtain ⟨head, begun⟩ : ∃ head,
      (shadowJsonInit pJsonDoc sizeOfBuffer params).1 = head := ⟨_, rfl⟩
  rw [begun] at length
  have below : head.length ≤ sizeOfBuffer := by omega
  rw [List.length_append] at fits
  by_cases all : params.method = .deleteAll
  · rw [documentContent_deleteAll all] at fits
    have remain := sizeOfPtrDiff_of_le below word
    have inside := (setContentInside_deleteAll all head sizeOfBuffer
      iteratorAllocated).mpr ⟨below, by
        rw [remain]
        exact printsInside_of_small _ (by omega) (by omega)⟩
    have printed : ∃ text,
        halSnprintf head head.length (sizeOfBuffer - head.length)
            (ascii "null") = (text, printedLength (ascii "null")) := by
      by_cases none : sizeOfBuffer - head.length = 0
      · rw [none]
        exact ⟨head, halSnprintf_zero ..⟩
      · exact ⟨_, halSnprintf_eq _ _ _ (by omega) none⟩
    obtain ⟨text, printed⟩ := printed
    refine buildsWhole_of_failure init begun
      (setContent_deleteAll all remain printed iteratorAllocated) inside ?_
    intro success
    have room := (checkSnprintfReturn_iff _ (by omega)).mp success
    have four : (ascii "null").length = 4 := rfl
    omega
  · obtain ⟨set, inside, empty⟩ := setContent_plain plain all head
      sizeOfBuffer iteratorAllocated
    rw [empty, List.length_nil] at fits
    refine (buildsWhole_small_iff small begun set (inside.mpr below) below
      (.inr (by omega))).mpr fun room => ?_
    omega

/-- Without properties the end replaces the brace in front of it, so that the
document is whole only if it fails. -/
theorem buildsWhole_replaced_iff (plain : ¬Carries params)
    (one : (documentTail params version).1 ≠ 0)
    (small : sizeOfBuffer < 2 ^ 31) (clear : sizeOfBuffer = 0 → pJsonDoc = [])
    (iteratorAllocated : Bool) :
    BuildsWhole pJsonDoc sizeOfBuffer params version iteratorAllocated ↔
      sizeOfBuffer ≤ (documentHead params).length +
        (documentTail params version).2.length := by
  obtain ⟨replaced, positive, -⟩ := documentTail_bounds params version
  have named := (documentHead_length params).1
  have notAll : params.method ≠ .deleteAll := by
    intro all
    refine one ?_
    unfold documentTail
    rw [all]
  have length := shadowJsonInit_length params small clear
  obtain ⟨head, begun⟩ : ∃ head,
      (shadowJsonInit pJsonDoc sizeOfBuffer params).1 = head := ⟨_, rfl⟩
  rw [begun] at length
  have below : head.length ≤ sizeOfBuffer := by omega
  obtain ⟨set, inside, empty⟩ := setContent_plain plain notAll head
    sizeOfBuffer iteratorAllocated
  have some : head ≠ [] ∨ sizeOfBuffer - head.length ≤ 1 := by
    by_cases tiny : sizeOfBuffer ≤ 1
    · exact .inr (by omega)
    · exact .inl (List.ne_nil_of_length_pos (by omega))
  rw [buildsWhole_small_iff small begun set (inside.mpr below) below some]
  constructor
  · intro whole
    by_contra room
    have lengths := congrArg List.length (whole (by omega))
    unfold wholeDocument at lengths
    rw [empty] at lengths
    simp only [List.length_append, List.length_take, List.getLast?_nil,
      reduceCtorEq, if_false, List.length_nil] at lengths
    omega
  · intro tight fits
    omega

end Plain

/-- In an ordinary buffer the document is built as it should be exactly if the
buffer suits it, and in any buffer that suits it is. -/
theorem buildsWhole_iff {sizeOfBuffer : Nat} (word : sizeOfBuffer < 2 ^ 64)
    (pJsonDoc : List UInt8) (params : RequestParams) (version : UInt32)
    (iteratorAllocated : Bool) :
    (Suits pJsonDoc sizeOfBuffer params version iteratorAllocated →
      BuildsWhole pJsonDoc sizeOfBuffer params version iteratorAllocated) ∧
    (sizeOfBuffer < 2 ^ 31 →
      BuildsWhole pJsonDoc sizeOfBuffer params version iteratorAllocated →
        Suits pJsonDoc sizeOfBuffer params version iteratorAllocated) := by
  have headShort := (documentHead_length params).2
  have tailShort := (documentTail_bounds params version).2.2
  unfold Suits
  dsimp only
  constructor
  · rintro ⟨clear, suits⟩
    by_cases carries : Carries params
    · rw [if_pos carries] at suits
      cases iteratorAllocated with
      | true => exact buildsWhole_of_suits carries word clear suits
      | false => exact buildsWhole_of_noIterator carries clear suits
    rw [if_neg carries] at suits
    by_cases zero : (documentTail params version).1 = 0
    · rw [if_pos zero] at suits
      rcases suits with small | ⟨headFits, contentFits, tailFits⟩
      · exact buildsWhole_of_small carries zero small clear iteratorAllocated
      · exact buildsWhole_of_fits carries zero word headFits contentFits
          (.inr tailFits) iteratorAllocated
    · rw [if_neg zero] at suits
      exact (buildsWhole_replaced_iff carries zero (by omega) clear
        iteratorAllocated).mpr suits
  · intro small builds
    have clear : sizeOfBuffer = 0 → pJsonDoc = [] := by
      rintro rfl
      exact builds.clear
    refine ⟨clear, ?_⟩
    by_cases carries : Carries params
    · rw [if_pos carries]
      cases iteratorAllocated with
      | true => exact suits_of_buildsWhole carries small builds
      | false => exact .inl small
    rw [if_neg carries]
    by_cases zero : (documentTail params version).1 = 0
    · rw [if_pos zero]
      exact .inl small
    · rw [if_neg zero]
      exact (buildsWhole_replaced_iff carries zero small clear
        iteratorAllocated).mp builds

/-- An update of one string property. -/
def stringUpdate (value : CString) : RequestParams where
  method := .update
  propertyDeltaList := [⟨⟨[97], CString.zero_not_mem_a⟩, some (.jstring value)⟩]
  timeoutSec := 5
  requestCallback := none
  userContext := 0

/-- Every node of a short update fits into a buffer of a hundred bytes. -/
theorem shortUpdate_builds :
    100 < 2 ^ 64 ∧
      BuildsWhole [] 100 (stringUpdate ⟨[120], by decide⟩) 7 true :=
  ⟨by decide, (buildsWhole_iff (by decide) [] _ 7 true).1
    ⟨nofun, by
      rw [if_pos (by decide), if_pos rfl]
      refine .inr (.inr ⟨?_, ⟨?_, ?_, trivial⟩, .inl (by decide)⟩) <;>
        exact (fits_iff (by decide) _).mpr (by decide +kernel)⟩⟩

/-- A value that would fit is cut off where the length of the string is taken
off twice, and no step reports it. -/
theorem longUpdate_cutOff :
    ¬∀ (pJsonDoc : List UInt8) (sizeOfBuffer : Nat) (params : RequestParams)
      (version : UInt32) (iteratorAllocated : Bool), sizeOfBuffer < 2 ^ 64 →
        BuildsWhole pJsonDoc sizeOfBuffer params version iteratorAllocated := by
  intro all
  have builds := all [] 100
    (stringUpdate ⟨List.replicate 30 120, by decide⟩) 7 true (by decide)
  have carries :
      Carries (stringUpdate ⟨List.replicate 30 120, by decide⟩) := by decide
  have head := documentHead_carries carries
  rcases suits_of_buildsWhole carries (by decide) builds with
    tiny | ⟨half, -⟩ | ⟨-, ⟨-, valueFits, -⟩, -⟩
  · omega
  · omega
  · rw [head] at valueFits
    exact absurd valueFits.1 (by decide)

end Shadow
end UIoT
