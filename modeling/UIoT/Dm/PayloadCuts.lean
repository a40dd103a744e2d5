import UIoT.Dm.PayloadShape

/-!
# Payloads that were cut off

What a generator accepts may have been cut off, but then the array is full with
it, and a text that contains it is too long for the next array.  So where there
is room to spare at the end, nothing has been cut off anywhere.
-/

namespace UIoT
namespace Dm

open BoundedPrinting JsonSyntax

/-- What is left is the whole text, or the array is full. -/
def WholeOrFull (account : Account) (text : List UInt8) : Prop :=
  ∀ left, account.left = some left →
    left = text ∨ dmMsgReportBufLen ≤ left.length + 1

theorem kept_whole_or_full (text : List UInt8) :
    kept text = text ∨ dmMsgReportBufLen ≤ (kept text).length + 1 := by
  by_cases short : text.length < dmMsgReportBufLen
  · exact .inl (kept_of_short short)
  · right
    unfold kept
    rw [List.length_take]
    omega

/-- A text that does not have room to spare still does not once it is kept. -/
theorem kept_full {text : List UInt8}
    (full : dmMsgReportBufLen ≤ text.length + 1) :
    dmMsgReportBufLen ≤ (kept text).length + 1 := by
  unfold kept
  rw [List.length_take]
  omega

theorem once_wholeOrFull (limit : Nat) (text : List UInt8) :
    WholeOrFull (.once limit text) text := by
  intro left found
  unfold Account.once at found
  dsimp only at found
  by_cases short : text.length < limit
  · rw [if_pos short] at found
    rw [← Option.some.inj found]
    exact kept_whole_or_full text
  · rw [if_neg short] at found
    cases found

theorem nodeAccount_wholeOrFull (dmNode : DmNode) (valueKey : Bool) :
    WholeOrFull (nodeAccount dmNode valueKey) (dmNode.text valueKey) := by
  unfold nodeAccount DmNode.text
  cases dmNode.value.printed with
  | none =>
      intro left found
      cases found
  | some value => exact once_wholeOrFull dmMsgReportBufLen _

/-! ## Elements -/

section Elements

variable {α : Type} {format : Format}
  {account : Nat → α → List UInt8 → Account} {text : α → List UInt8}

theorem piece_le (format : Format) (first last : Bool) (element : List UInt8) :
    element.length ≤ (format.piece first last element).length := by
  unfold Format.piece
  split
  · simp
  · split
    · simp only [List.length_append]
      omega
    · simp

/-- Behind a text that fills the array nothing makes room again. -/
theorem restAccount_full (loop : Nat) (elements : List α)
    (element front : List UInt8)
    (full : dmMsgReportBufLen ≤ front.length + 1) {left : List UInt8}
    (found : (restAccount format account loop elements element front).left =
      some left) :
    dmMsgReportBufLen ≤ left.length + 1 := by
  induction elements generalizing loop element front with
  | nil =>
      unfold restAccount at found
      dsimp only at found
      by_cases fits : front.length ≤ dmMsgReportBufLen
      · rw [if_pos fits] at found
        rw [← Option.some.inj found]
        exact kept_full full
      · rw [if_neg fits] at found
        cases found
  | cons next elements inductionHypothesis =>
      rw [restAccount] at found
      cases this : (account loop next element).left with
      | none =>
          rw [this] at found
          cases found
      | some text =>
          rw [this] at found
          refine inductionHypothesis _ _ _ ?_ found
          rw [List.length_append]
          omega

/-- The rest of a loop behind whole texts. -/
theorem restAccount_wholeOrFull {elements : List α}
    (each : ∀ loop, ∀ element ∈ elements, ∀ payload,
      WholeOrFull (account loop element payload) (text element))
    (loop : Nat) (element front : List UInt8) :
    WholeOrFull (restAccount format account (loop + 1) elements element front)
      (front ++ behindFirst format text elements) := by
  intro left found
  induction elements generalizing loop element front with
  | nil =>
      unfold restAccount at found
      dsimp only at found
      rw [behindFirst, List.append_nil]
      by_cases fits : front.length ≤ dmMsgReportBufLen
      · rw [if_pos fits] at found
        rw [← Option.some.inj found]
        exact kept_whole_or_full front
      · rw [if_neg fits] at found
        cases found
  | cons next elements inductionHypothesis =>
      rw [restAccount] at found
      cases this : (account (loop + 1) next element).left with
      | none =>
          rw [this] at found
          cases found
      | some got =>
          rw [this] at found
          dsimp only at found
          rcases each (loop + 1) next List.mem_cons_self element got this with
            rfl | full
          · rw [behindFirst, ← List.append_assoc]
            exact inductionHypothesis
              (fun loop other mem => each loop other
                (List.mem_cons_of_mem _ mem)) (loop + 1) _ _ found
          · right
            refine restAccount_full _ _ _ _ ?_ found
            have longer := piece_le format (decide (loop + 1 = 0))
              elements.isEmpty got
            rw [List.length_append]
            omega

/-- The text of several elements by its pieces. -/
theorem format_text_cons {first : α} {rest : List α}
    (closes : (first :: rest).length = 1 → format.closing = []) :
    format.text text (first :: rest) =
      format.opening ++ text first ++ behindFirst format text rest := by
  rw [Format.text, joined]
  cases rest with
  | nil =>
      rw [closes rfl, behindFirst]
      simp
  | cons second rest =>
      rw [behindFirst_eq (List.cons_ne_nil _ _)]
      simp

/-- Elements in a loop, where nothing closes a single one. -/
theorem joinedAccount_wholeOrFull {elements : List α}
    (each : ∀ loop, ∀ element ∈ elements, ∀ payload,
      WholeOrFull (account loop element payload) (text element))
    (nonempty : elements ≠ [])
    (closes : elements.length = 1 → format.closing = [])
    (element payload : List UInt8) :
    WholeOrFull (joinedAccount format account elements element payload)
      (format.text text elements) := by
  cases elements with
  | nil => exact absurd rfl nonempty
  | cons first rest =>
      intro left found
      have begins : joinedAccount format account (first :: rest) element
          payload = restAccount format account 0 (first :: rest) element [] :=
        rfl
      rw [begins, restAccount] at found
      cases this : (account 0 first element).left with
      | none =>
          rw [this] at found
          cases found
      | some got =>
          rw [this] at found
          dsimp only at found
          rcases each 0 first List.mem_cons_self element got this with
            rfl | full
          · rw [format_text_cons closes]
            exact restAccount_wholeOrFull
              (fun loop other mem => each loop other
                (List.mem_cons_of_mem _ mem)) 0 _ _ left found
          · right
            refine restAccount_full _ _ _ _ ?_ found
            have longer := piece_le format (decide (0 = 0)) rest.isEmpty got
            rw [List.length_append]
            omega

/-- The elements of a struct or an array. -/
theorem elementsAccount_wholeOrFull {elements : List α}
    (each : ∀ loop, ∀ element ∈ elements, ∀ payload,
      WholeOrFull (account loop element payload) (text element))
    (nonempty : elements ≠ []) (elementPayload : Option Buffer)
    (payload : List UInt8) :
    WholeOrFull (elementsAccount format account elements elementPayload payload)
      (format.text text elements) := by
  cases elementPayload with
  | none =>
      intro left found
      cases found
  | some elementPayload =>
      cases elements with
      | nil => exact absurd rfl nonempty
      | cons first rest =>
          cases rest with
          | cons second rest =>
              exact joinedAccount_wholeOrFull each nonempty
                (fun one => by simp at one) elementPayload.text payload
          | nil =>
              have whole : format.text text [first] =
                  format.opening ++ text first ++ format.closing := by
                rw [Format.text, joined, List.flatMap_nil, List.append_nil]
              rw [whole]
              intro left found
              rw [elementsAccount, singleAccount] at found
              cases this : (account 0 first elementPayload.text).left with
              | none =>
                  rw [this] at found
                  cases found
              | some got =>
                  rw [this] at found
                  dsimp only at found
                  rcases each 0 first List.mem_cons_self elementPayload.text
                    got this with rfl | full
                  · exact once_wholeOrFull _ _ left found
                  · right
                    rcases once_wholeOrFull _ _ left found with same | still
                    · rw [same, List.length_append, List.length_append]
                      omega
                    · exact still

end Elements

/-! ## Properties -/

theorem structAccount_wholeOrFull {dmStruct : DmTypeStruct} (valueKey : Bool)
    (shape : StructShape dmStruct) (nodePayload : Option Buffer)
    (payload : List UInt8) :
    WholeOrFull (structAccount dmStruct valueKey nodePayload payload)
      (dmStruct.text valueKey) :=
  elementsAccount_wholeOrFull
    (fun _ dmNode _ _ => nodeAccount_wholeOrFull dmNode false) shape.nonempty
    nodePayload payload

theorem postAccount_wholeOrFull {property : DmProperty} (valueKey : Bool)
    (shape : property.value.Shape) (memory : PropertyMemory)
    (payload : List UInt8) :
    WholeOrFull (postAccount property valueKey memory payload)
      (property.text valueKey) := by
  unfold postAccount DmProperty.text
  cases value : property.value with
  | node dmNode => exact nodeAccount_wholeOrFull dmNode valueKey
  | struct dmStruct =>
      rw [value] at shape
      exact structAccount_wholeOrFull valueKey shape.2 memory.element payload
  | arrayBase dmArrayBase =>
      rw [value] at shape
      exact elementsAccount_wholeOrFull
        (fun _ dmNode _ _ => nodeAccount_wholeOrFull dmNode false) shape.2.1
        memory.element payload
  | arrayStruct dmArrayStruct =>
      rw [value] at shape
      exact elementsAccount_wholeOrFull
        (fun loop dmStruct mem payload => structAccount_wholeOrFull false
          (shape.2.2 dmStruct mem).2 (memory.node loop) payload)
        shape.2.1 memory.element payload
  | illegal =>
      rw [value] at shape
      exact shape.elim

/-! ## Reported properties -/

/-- A property may be reported: to post one its value has to have a shape, else
only its key is used. -/
def Reportable (type : DmType) (property : DmProperty) : Prop :=
  match type with
  | .propertyPost => property.value.Shape
  | .propertyDesiredGet | .propertyDesiredDelete =>
      ∃ key, property.value.key = some (some key) ∧
        ∀ byte ∈ key.bytes, PlainByte byte
  | _ => False

/-- The bytes of the key of a property. -/
def DmProperty.keyBytes (property : DmProperty) : List UInt8 :=
  percentS (property.value.key.getD none)

/-- The text of a property in a message of the type. -/
def DmProperty.reportText (type : DmType) (valueKey : Bool)
    (property : DmProperty) : List UInt8 :=
  match type with
  | .propertyDesiredGet => ascii "\"" ++ property.keyBytes ++ ascii "\""
  | .propertyDesiredDelete =>
      ascii "\"" ++ property.keyBytes ++ ascii "\": \x7b\"version\": " ++
        decimal property.desiredVer.toInt ++ ascii "\x7d"
  | _ => property.text valueKey

theorem keyAccount_eq {property : DmProperty} {key : CString}
    (found : property.value.key = some (some key))
    (text : List UInt8 → List UInt8) :
    keyAccount property text = .once (2 ^ 31) (text property.keyBytes) := by
  unfold keyAccount DmProperty.keyBytes
  rw [found]
  rfl

theorem propertyAccount_wholeOrFull {type : DmType} (valueKey : Bool)
    {property : DmProperty} (reportable : Reportable type property)
    (memory : PropertyMemory) (payload : List UInt8) :
    WholeOrFull (propertyAccount type valueKey property memory payload)
      (property.reportText type valueKey) := by
  cases type with
  | propertyPost =>
      exact postAccount_wholeOrFull valueKey reportable memory payload
  | propertyDesiredGet =>
      obtain ⟨key, found, -⟩ := reportable
      rw [propertyAccount, keyAccount_eq found]
      exact once_wholeOrFull _ _
  | propertyDesiredDelete =>
      obtain ⟨key, found, -⟩ := reportable
      rw [propertyAccount, keyAccount_eq found]
      exact once_wholeOrFull _ _
  | _ => exact reportable.elim

theorem propertyAccount_leaves {type : DmType} {valueKey : Bool}
    {property : DmProperty} (reportable : Reportable type property)
    {memory : PropertyMemory} (allocated : memory.Allocated)
    (payload : List UInt8)
    (short : (property.reportText type valueKey).length < dmMsgReportBufLen) :
    Leaves (propertyAccount type valueKey property memory payload)
      (property.reportText type valueKey) := by
  cases type with
  | propertyPost => exact postAccount_leaves reportable allocated payload short
  | propertyDesiredGet =>
      obtain ⟨key, found, -⟩ := reportable
      rw [propertyAccount, keyAccount_eq found]
      exact once_leaves short (by decide)
  | propertyDesiredDelete =>
      obtain ⟨key, found, -⟩ := reportable
      rw [propertyAccount, keyAccount_eq found]
      exact once_leaves short (by decide)
  | _ => exact reportable.elim

/-- The text of several properties. -/
def reportsText (type : DmType) (valueKey : Bool)
    (properties : List DmProperty) : List UInt8 :=
  joined (DmProperty.reportText type valueKey) properties

theorem format_text_none {α : Type} (text : α → List UInt8)
    (elements : List α) :
    (Format.mk [] []).text text elements = joined text elements := by
  rw [Format.text, List.nil_append, List.append_nil]

section

variable {type : DmType} {valueKey : Bool} {properties : List DmProperty}

/-- Where no call prints outside of its array, what is accepted of properties is
their whole text, or their array is full. -/
theorem dmGenPropertiesPayload_whole_or_full (nonempty : properties ≠ [])
    (reportable : ∀ property ∈ properties, Reportable type property)
    {payload : Option Buffer} {memory : Nat → PropertyMemory}
    {propertiesPayload : Option Buffer} {generated : Generated}
    (same : generated = dmGenPropertiesPayload (some properties) type valueKey
      payload memory propertiesPayload)
    (inside : ∀ print ∈ generated.prints, print.Inside dmMsgReportBufLen)
    (success : generated.ret = .successRet) :
    generated.payload = reportsText type valueKey properties ∨
      dmMsgReportBufLen ≤ generated.payload.length + 1 := by
  have meets := dmGenPropertiesPayload_meets (some properties) type valueKey
    payload memory propertiesPayload
  rw [← same] at meets
  have fits := meets.inside_iff.mp inside
  obtain ⟨left, found⟩ :=
    Option.isSome_iff_exists.mp ((meets.accepted_iff fits).mp success)
  rw [(meets.left fits left found).1]
  cases propertiesPayload with
  | none => cases found
  | some propertiesPayload =>
      cases payload with
      | none => cases found
      | some payload =>
          have whole := joinedAccount_wholeOrFull
            (fun loop property mem payload => propertyAccount_wholeOrFull
              valueKey (reportable property mem) (memory loop) payload)
            nonempty (fun _ => rfl) payload.text propertiesPayload.text left
            found
          rw [format_text_none] at whole
          exact whole

/-- Where all arrays can be allocated and the text is shorter than these, it is
generated in whole. -/
theorem dmGenPropertiesPayload_of_short (nonempty : properties ≠ [])
    (reportable : ∀ property ∈ properties, Reportable type property)
    (payload : Buffer) {memory : Nat → PropertyMemory}
    (allocated : ∀ loop, (memory loop).Allocated) (propertiesPayload : Buffer)
    (short : (reportsText type valueKey properties).length <
      dmMsgReportBufLen) :
    let generated := dmGenPropertiesPayload (some properties) type valueKey
      (some payload) memory (some propertiesPayload)
    generated.ret = .successRet ∧
      generated.payload = reportsText type valueKey properties ∧
      ∀ print ∈ generated.prints, print.Inside dmMsgReportBufLen := by
  intro generated
  have leaves : Leaves
      (propertiesAccount (some properties) type valueKey (some payload) memory
        (some propertiesPayload))
      ((Format.mk [] []).text (DmProperty.reportText type valueKey)
        properties) :=
    joinedAccount_leaves
      (fun loop property mem _ => propertyAccount_leaves
        (reportable property mem) (allocated loop) _)
      nonempty (fun _ => rfl) payload.text propertiesPayload.text
      (by rw [format_text_none]; exact short)
  rw [format_text_none] at leaves
  have meets : Meets generated _ := dmGenPropertiesPayload_meets ..
  obtain ⟨same, -, -⟩ := meets.left leaves.frontsFit _ leaves.left
  refine ⟨(meets.accepted_iff leaves.frontsFit).mpr ?_, same,
    meets.inside_iff.mpr leaves.frontsFit⟩
  rw [leaves.left]
  rfl

end

end Dm
end UIoT
