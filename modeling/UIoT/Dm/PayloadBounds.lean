import UIoT.Dm.Payloads

/-!
# Bounds of payloads

An account of the texts that are generated, without arrays and sizes, tells when
all of them are printed inside their arrays and when nothing of them is cut off.
The generators test the size that remains behind their loops only, a negative
one and not one that is used up, and where an element is the only one they do
not test it at all.
-/

namespace UIoT
namespace Dm

open BoundedPrinting

/-! ## Accounts -/

/-- The account of a text: what is left of it in its array if it is accepted,
whether the text in front of every further piece has been no longer than the
array, and whether nothing has been cut off. -/
structure Account where
  left : Option (List UInt8)
  frontsFit : Prop
  uncut : Prop

/-- What is left of a text in an array. -/
def kept (text : List UInt8) : List UInt8 := text.take (dmMsgReportBufLen - 1)

/-- Nothing is printed, and nothing is accepted. -/
def Account.rejected : Account := ⟨none, True, True⟩

/-- Nothing is printed, and what lies in the array is accepted. -/
def Account.stale (text : List UInt8) : Account := ⟨some text, True, True⟩

/-- A text printed at once and accepted where it is shorter than a limit. -/
def Account.once (limit : Nat) (text : List UInt8) : Account :=
  ⟨if text.length < limit then some (kept text) else none, True,
    text.length < dmMsgReportBufLen⟩

/-- A node is accepted where it has room. -/
def nodeAccount (dmNode : DmNode) (valueKey : Bool) : Account :=
  match dmNode.value.printed with
  | none => .rejected
  | some value =>
      .once dmMsgReportBufLen (nodeText dmNode.key valueKey value)

/-- Elements behind a text: where one of them is rejected, all are; and a text
of at most the length of the array is accepted. -/
def restAccount {α : Type} (format : Format)
    (account : Nat → α → List UInt8 → Account) :
    (loop : Nat) → List α → (element front : List UInt8) → Account
  | _, [], _, front =>
      ⟨if front.length ≤ dmMsgReportBufLen then some (kept front) else none,
        True, front.length < dmMsgReportBufLen⟩
  | loop, next :: elements, element, front =>
      let this := account loop next element
      match this.left with
      | none => ⟨none, this.frontsFit, True⟩
      | some text =>
          let rest := restAccount format account (loop + 1) elements text
            (front ++ format.piece (loop = 0) elements.isEmpty text)
          ⟨rest.left,
            this.frontsFit ∧ front.length ≤ dmMsgReportBufLen ∧ rest.frontsFit,
            this.uncut ∧ rest.uncut⟩

/-- Elements in a loop; without elements the array is left as it is. -/
def joinedAccount {α : Type} (format : Format)
    (account : Nat → α → List UInt8 → Account) (elements : List α)
    (element payload : List UInt8) : Account :=
  match elements with
  | [] => .stale payload
  | elements => restAccount format account 0 elements element []

/-- An element that is the only one: any text with an `int` for its length is
accepted. -/
def singleAccount {α : Type} (format : Format)
    (account : Nat → α → List UInt8 → Account) (only : α)
    (element : List UInt8) : Account :=
  let this := account 0 only element
  match this.left with
  | none => ⟨none, this.frontsFit, True⟩
  | some text =>
      let once :=
        Account.once (2 ^ 31) (format.opening ++ text ++ format.closing)
      ⟨once.left, this.frontsFit, this.uncut ∧ once.uncut⟩

/-- The elements of a struct or an array. -/
def elementsAccount {α : Type} (format : Format)
    (account : Nat → α → List UInt8 → Account) (elements : List α)
    (elementPayload : Option Buffer) (payload : List UInt8) : Account :=
  match elementPayload, elements with
  | none, _ => .rejected
  | some elementPayload, [only] =>
      singleAccount format account only elementPayload.text
  | some elementPayload, elements =>
      joinedAccount format account elements elementPayload.text payload

/-- A struct. -/
def structAccount (dmStruct : DmTypeStruct) (valueKey : Bool)
    (nodePayload : Option Buffer) (payload : List UInt8) : Account :=
  elementsAccount (structFormat dmStruct.key valueKey)
    (fun _ dmNode _ => nodeAccount dmNode false) dmStruct.value nodePayload
    payload

/-- An array of nodes. -/
def arrayBaseAccount (dmArrayBase : DmArrayBase) (valueKey : Bool)
    (nodePayload : Option Buffer) (payload : List UInt8) : Account :=
  elementsAccount (arrayFormat dmArrayBase.key valueKey)
    (fun _ dmNode _ => nodeAccount dmNode false) dmArrayBase.value nodePayload
    payload

/-- An array of structs. -/
def arrayStructAccount (dmArrayStruct : DmArrayStruct) (valueKey : Bool)
    (structPayload : Option Buffer) (nodePayload : Nat → Option Buffer)
    (payload : List UInt8) : Account :=
  elementsAccount (arrayFormat dmArrayStruct.key valueKey)
    (fun loop dmStruct => structAccount dmStruct false (nodePayload loop))
    dmArrayStruct.value structPayload payload

/-- The key of a property with what is printed around it: any text with an `int`
for its length is accepted. -/
def keyAccount (property : DmProperty) (text : List UInt8 → List UInt8) :
    Account :=
  match property.value.key with
  | none => .rejected
  | some key => .once (2 ^ 31) (text (percentS key))

/-- A property that is posted. -/
def postAccount (property : DmProperty) (valueKey : Bool)
    (memory : PropertyMemory) (payload : List UInt8) : Account :=
  match property.value with
  | .node dmNode => nodeAccount dmNode valueKey
  | .struct dmStruct => structAccount dmStruct valueKey memory.element payload
  | .arrayBase dmArrayBase =>
      arrayBaseAccount dmArrayBase valueKey memory.element payload
  | .arrayStruct dmArrayStruct =>
      arrayStructAccount dmArrayStruct valueKey memory.element memory.node
        payload
  | .illegal => .rejected

/-- A property in a message of the type. -/
def propertyAccount (type : DmType) (valueKey : Bool) (property : DmProperty)
    (memory : PropertyMemory) (payload : List UInt8) : Account :=
  match type with
  | .propertyPost => postAccount property valueKey memory payload
  | .propertyDesiredGet =>
      keyAccount property fun key => ascii "\"" ++ key ++ ascii "\""
  | .propertyDesiredDelete =>
      keyAccount property fun key =>
        ascii "\"" ++ key ++ ascii "\": \x7b\"version\": " ++
          decimal property.desiredVer.toInt ++ ascii "\x7d"
  | _ => .stale payload

/-- The account of a whole list of properties. -/
def propertiesAccount (property : Option (List DmProperty)) (type : DmType)
    (valueKey : Bool) (payload : Option Buffer) (memory : Nat → PropertyMemory)
    (propertiesPayload : Option Buffer) : Account :=
  match property, propertiesPayload, payload with
  | some properties, some propertiesPayload, some payload =>
      joinedAccount ⟨[], []⟩
        (fun loop property =>
          propertyAccount type valueKey property (memory loop))
        properties payload.text propertiesPayload.text
  | _, _, _ => .rejected

/-! ## Generators and their accounts -/

/-- The generator does as the account says. -/
structure Meets (generated : Generated) (account : Account) : Prop where
  inside_iff : (∀ print ∈ generated.prints, print.Inside dmMsgReportBufLen) ↔
    account.frontsFit
  accepted_iff : account.frontsFit →
    (generated.ret = .successRet ↔ account.left.isSome)
  left : account.frontsFit → ∀ text, account.left = some text →
    generated.payload = text ∧ text.length ≤ dmMsgReportBufLen ∧
      ((∀ print ∈ generated.prints, print.Whole) ↔ account.uncut)

theorem kept_length (text : List UInt8) :
    (kept text).length ≤ dmMsgReportBufLen := by
  unfold kept dmMsgReportBufLen
  rw [List.length_take]
  omega

theorem meets_rejected {ret : IoTError} (failed : ret ≠ .successRet)
    (payload : List UInt8) : Meets ⟨ret, payload, []⟩ .rejected where
  inside_iff := iff_of_true nofun trivial
  accepted_iff _ := iff_of_false failed (by decide)
  left _ _ := nofun

theorem meets_stale {payload : List UInt8}
    (fits : payload.length ≤ dmMsgReportBufLen) :
    Meets ⟨.successRet, payload, []⟩ (.stale payload) where
  inside_iff := iff_of_true nofun trivial
  accepted_iff _ := iff_of_true rfl rfl
  left _ := by
    rintro _ ⟨⟩
    exact ⟨rfl, fits, iff_of_true nofun trivial⟩

/-- What is printed from the beginning of an array on. -/
theorem written_once (payload text : List UInt8) :
    Print.written payload ⟨0, dmMsgReportBufLen, text⟩ = kept text :=
  (filled_first (by decide : 0 < dmMsgReportBufLen) payload text).text_eq

theorem meets_once {ret : IoTError} {limit : Nat} {text : List UInt8}
    (ret_iff : ret = .successRet ↔ text.length < limit)
    (payload : List UInt8) :
    Meets
      ⟨ret, Print.written payload ⟨0, dmMsgReportBufLen, text⟩,
        [⟨0, dmMsgReportBufLen, text⟩]⟩
      (.once limit text) where
  inside_iff :=
    iff_of_true (List.forall_mem_singleton.mpr (inside_once _ text)) trivial
  accepted_iff _ := by
    rw [Account.once, ret_iff]
    by_cases short : text.length < limit
    · rw [if_pos short]
      exact iff_of_true short rfl
    · rw [if_neg short]
      exact iff_of_false short Bool.false_ne_true
  left _ kept' left := by
    rw [Account.once] at left
    split at left
    · obtain rfl := Option.some.inj left
      refine ⟨written_once payload text, kept_length text, ?_⟩
      rw [List.forall_mem_singleton]
      exact whole_once_iff _ text
    · cases left

theorem dmGenNodePayload_meets (dmNode : DmNode) (valueKey : Bool)
    (payload : List UInt8) :
    Meets (dmGenNodePayload dmNode valueKey payload)
      (nodeAccount dmNode valueKey) := by
  unfold dmGenNodePayload nodeAccount
  cases dmNode.value.printed with
  | none => exact meets_rejected (by decide) payload
  | some value =>
      dsimp only
      generalize nodeText dmNode.key valueKey value = text
      have tested : Print.result ⟨0, dmMsgReportBufLen, text⟩ < 0 ∨
          Print.result ⟨0, dmMsgReportBufLen, text⟩ ≥ dmMsgReportBufLen ↔
            ¬text.length < dmMsgReportBufLen := by
        unfold Print.result dmMsgReportBufLen
        dsimp only
        split <;> omega
      apply meets_once
      split
      · rename_i failed
        exact iff_of_false nofun (tested.mp failed)
      · rename_i passed
        exact iff_of_true rfl (not_not.mp (mt tested.mpr passed))

/-- A test of the result for being negative alone. -/
theorem ret_of_result_iff (text : List UInt8) :
    (if Print.result ⟨0, dmMsgReportBufLen, text⟩ < 0 then IoTError.failureRet
      else .successRet) = .successRet ↔ text.length < 2 ^ 31 := by
  rw [← result_nonneg_iff 0 dmMsgReportBufLen]
  split
  · rename_i failed
    exact iff_of_false nofun (not_not.mpr failed)
  · rename_i passed
    exact iff_of_true rfl passed

theorem genKey_meets (property : DmProperty) (text : List UInt8 → List UInt8)
    (payload : List UInt8) :
    Meets (genKey property text payload) (keyAccount property text) := by
  unfold genKey keyAccount
  cases property.value.key with
  | none => exact meets_rejected (by decide) payload
  | some key => exact meets_once (ret_of_result_iff _) payload

/-! ## Loops -/

section

variable {α : Type} {format : Format}
  {generate : Nat → α → List UInt8 → Generated}
  {account : Nat → α → List UInt8 → Account}

/-- The rest of a loop does as the account of the rest says: of the calls it
makes, of what it returns in the end, and of what then is in the array. -/
structure RestMeets (s after : Joining) (ret : IoTError) (front : List UInt8)
    (rest : Account) : Prop where
  prints : ∃ calls, after.prints = s.prints ++ calls ∧
    ((∀ print ∈ calls, print.Inside dmMsgReportBufLen) ↔ rest.frontsFit) ∧
    (rest.frontsFit → rest.left.isSome →
      (front.length < dmMsgReportBufLen ∧ (∀ print ∈ calls, print.Whole) ↔
        rest.uncut))
  accepted_iff : rest.frontsFit →
    (ret = .successRet ∧ ¬(after.writeSize < 0 ∨ after.remainSize < 0) ↔
      rest.left.isSome)
  left : rest.frontsFit → ∀ text, rest.left = some text →
    after.payload = text ∧ text.length ≤ dmMsgReportBufLen

theorem receive_prints (s : Joining) (generated : Generated) :
    s.prints <+: (s.receive generated).prints :=
  List.prefix_append ..

theorem append_prints (s : Joining) (format : Format) (first last : Bool) :
    s.prints <+: (s.append format first last).prints :=
  List.prefix_append ..

/-- A loop only adds calls. -/
theorem joinFrom_prints (elements : List α) (loop : Nat) (s : Joining) :
    s.prints <+: (joinFrom format generate loop elements s).2.prints := by
  induction elements generalizing loop s with
  | nil => exact List.prefix_refl _
  | cons next elements inductionHypothesis =>
      rw [joinFrom]
      split
      · exact receive_prints ..
      · exact ((receive_prints ..).trans (append_prints ..)).trans
          (inductionHypothesis ..)

/-- Where a call is not inside its array the rest of the loop cannot help it. -/
theorem RestMeets.outside {s after : Joining} {ret : IoTError}
    {front : List UInt8} {rest : Account} (calls : List Print)
    (grown : s.prints ++ calls <+: after.prints)
    (outside : ¬∀ print ∈ calls, print.Inside dmMsgReportBufLen)
    (unfit : ¬rest.frontsFit) : RestMeets s after ret front rest := by
  obtain ⟨more, prints⟩ := grown
  refine ⟨⟨calls ++ more, ?_, ?_, ?_⟩, ?_, ?_⟩
  · rw [← prints, List.append_assoc]
  · refine iff_of_false (fun inside => outside fun print mem => ?_) unfit
    exact inside print (List.mem_append_left _ mem)
  all_goals exact fun fit => absurd fit unfit

/-- An element whose piece is printed inside the array, and the rest behind
it. -/
theorem RestMeets.cons {s next after : Joining} {ret : IoTError}
    {front piece : List UInt8} {this rest : Account} {calls : List Print}
    {print : Print} (prints : next.prints = s.prints ++ calls ++ [print])
    (frontsFit : this.frontsFit)
    (inside : ∀ print ∈ calls, print.Inside dmMsgReportBufLen)
    (uncut : (∀ print ∈ calls, print.Whole) ↔ this.uncut)
    (printInside : print.Inside dmMsgReportBufLen)
    (front_le : front.length ≤ dmMsgReportBufLen)
    (whole : print.Whole ↔ (front ++ piece).length < dmMsgReportBufLen)
    (later : RestMeets next after ret (front ++ piece) rest) :
    RestMeets s after ret front
      ⟨rest.left,
        this.frontsFit ∧ front.length ≤ dmMsgReportBufLen ∧ rest.frontsFit,
        this.uncut ∧ rest.uncut⟩ := by
  obtain ⟨more, grown, inside_iff, uncut_iff⟩ := later.prints
  refine ⟨⟨calls ++ [print] ++ more, ?_, ?_, ?_⟩, ?_, ?_⟩
  · rw [grown, prints]
    simp only [List.append_assoc]
  · rw [List.forall_mem_append, List.forall_mem_append,
      List.forall_mem_singleton, inside_iff]
    exact ⟨fun all => ⟨frontsFit, front_le, all.2⟩,
      fun all => ⟨⟨inside, printInside⟩, all.2.2⟩⟩
  · rintro ⟨-, -, restFits⟩ left
    rw [List.forall_mem_append, List.forall_mem_append,
      List.forall_mem_singleton, uncut, whole, ← uncut_iff restFits left]
    constructor
    · rintro ⟨-, ⟨thisUncut, short⟩, restUncut⟩
      exact ⟨thisUncut, short, restUncut⟩
    · rintro ⟨thisUncut, short, restUncut⟩
      refine ⟨?_, ⟨thisUncut, short⟩, restUncut⟩
      rw [List.length_append] at short
      omega
  · exact fun fits => later.accepted_iff fits.2.2
  · exact fun fits => later.left fits.2.2

theorem piece_length (format : Format) (last : Bool) (element : List UInt8) :
    (format.piece false last element).length ≤
      element.length + format.closing.length + 2 := by
  have separator : (ascii ", ").length = 2 := by decide +kernel
  unfold Format.piece
  rw [if_neg Bool.false_ne_true]
  split <;> simp only [List.length_append, separator] <;> omega

/-- A turn of a loop: the element is generated, its piece is printed inside the
array exactly if the text in front of it is no longer than that, and then the
rest follows. -/
theorem joinFrom_cons_meets {loop : Nat} {next : α} {elements : List α}
    {s : Joining} {front : List UInt8}
    (this : Meets (generate loop next s.element)
      (account loop next s.element))
    (inside_iff : ∀ generated : Generated,
      ((s.receive generated).print format (loop = 0)
          elements.isEmpty).Inside dmMsgReportBufLen ↔
        front.length ≤ dmMsgReportBufLen)
    (whole_iff : front.length ≤ dmMsgReportBufLen →
      ∀ generated : Generated,
        ((s.receive generated).print format (loop = 0)
            elements.isEmpty).Whole ↔
          (front ++ format.piece (loop = 0) elements.isEmpty
            generated.payload).length < dmMsgReportBufLen)
    (later : front.length ≤ dmMsgReportBufLen → ∀ generated : Generated,
      generated.payload.length ≤ dmMsgReportBufLen →
      let appended :=
        (s.receive generated).append format (loop = 0) elements.isEmpty
      RestMeets appended
        (joinFrom format generate (loop + 1) elements appended).2
        (joinFrom format generate (loop + 1) elements appended).1
        (front ++ format.piece (loop = 0) elements.isEmpty generated.payload)
        (restAccount format account (loop + 1) elements generated.payload
          (front ++ format.piece (loop = 0) elements.isEmpty
            generated.payload))) :
    RestMeets s (joinFrom format generate loop (next :: elements) s).2
      (joinFrom format generate loop (next :: elements) s).1 front
      (restAccount format account loop (next :: elements) s.element front) := by
  rw [joinFrom, restAccount]
  dsimp only
  generalize generate loop next s.element = generated at this
  generalize account loop next s.element = own at this
  let appended :=
    (s.receive generated).append format (loop = 0) elements.isEmpty
  let print := (s.receive generated).print format (loop = 0) elements.isEmpty
  have prints : appended.prints = s.prints ++ generated.prints ++ [print] := rfl
  have grown : appended.prints <+:
      (joinFrom format generate (loop + 1) elements appended).2.prints :=
    joinFrom_prints elements (loop + 1) appended
  by_cases unfit : ¬own.frontsFit
  · refine .outside generated.prints ?_ (mt this.inside_iff.mp unfit) ?_
    · split
      · exact List.prefix_refl _
      · exact (append_prints (s.receive generated) ..).trans grown
    · cases own.left with
      | none => exact unfit
      | some text => exact fun fits => unfit fits.1
  have frontsFit : own.frontsFit := not_not.mp unfit
  have accepted_iff := this.accepted_iff frontsFit
  have inside := this.inside_iff.mpr frontsFit
  cases left : own.left with
  | none =>
      rw [left] at accepted_iff
      have failed : generated.ret ≠ .successRet := fun success =>
        absurd (accepted_iff.mp success) Bool.false_ne_true
      rw [if_pos failed]
      refine ⟨⟨generated.prints, rfl, this.inside_iff, nofun⟩, fun _ => ?_,
        fun _ _ => nofun⟩
      exact iff_of_false (fun both => failed both.1) Bool.false_ne_true
  | some text =>
      rw [left] at accepted_iff
      obtain ⟨rfl, textFits, uncut⟩ := this.left frontsFit text left
      rw [if_neg (not_not.mpr (accepted_iff.mpr rfl))]
      dsimp only
      by_cases front_le : front.length ≤ dmMsgReportBufLen
      · exact .cons prints frontsFit inside uncut
          ((inside_iff generated).mpr front_le) front_le
          (whole_iff front_le generated) (later front_le generated textFits)
      · refine .outside (generated.prints ++ [print]) ?_ ?_ ?_
        · rw [← List.append_assoc, ← prints]
          exact grown
        · intro all
          exact front_le ((inside_iff generated).mp (all print (by simp)))
        · exact fun fits => front_le fits.2.1

/-- The rest of a loop behind the first element. -/
theorem joinFrom_meets
    (meets : ∀ loop element payload, payload.length ≤ dmMsgReportBufLen →
      Meets (generate loop element payload) (account loop element payload))
    (short : format.closing.length ≤ dmMsgReportBufLen) (elements : List α)
    (loop : Nat) (s : Joining) (front : List UInt8)
    (filled : Filled dmMsgReportBufLen front s.payload s.writeSize
      s.remainSize)
    (fits : s.element.length ≤ dmMsgReportBufLen) :
    RestMeets s (joinFrom format generate (loop + 1) elements s).2
      (joinFrom format generate (loop + 1) elements s).1 front
      (restAccount format account (loop + 1) elements s.element front) := by
  induction elements generalizing loop s front with
  | nil =>
      have accepted := filled.accepted_iff (by decide)
      rw [joinFrom, restAccount]
      refine ⟨⟨[], by simp, by simp, fun _ _ => by simp⟩, fun _ => ?_,
        fun _ text left => ?_⟩
      · dsimp only
        rw [accepted]
        split
        · rename_i within
          exact iff_of_true ⟨rfl, within⟩ rfl
        · rename_i beyond
          exact iff_of_false (fun both => beyond both.2) Bool.false_ne_true
      · dsimp only at left ⊢
        split at left
        · obtain rfl := Option.some.inj left
          exact ⟨filled.text_eq, kept_length front⟩
        · cases left
  | cons next elements inductionHypothesis =>
      apply joinFrom_cons_meets (meets (loop + 1) next s.element fits)
      · exact fun generated =>
          filled.inside_iff (by decide) (by decide) _
      · exact fun front_le generated =>
          filled.whole_iff (by decide) front_le _ _
      · intro front_le generated textFits
        have piece_le : (format.piece (loop + 1 = 0) elements.isEmpty
            generated.payload).length ≤ _ :=
          piece_length format elements.isEmpty generated.payload
        apply inductionHypothesis
        · exact filled.next front_le (by unfold dmMsgReportBufLen at *; omega)
        · exact textFits

/-- What is made of a loop that begins without calls. -/
theorem RestMeets.meets {s after : Joining} {ret : IoTError} {rest : Account}
    (whole : RestMeets s after ret [] rest) (begins : s.prints = []) :
    Meets
      (if ret ≠ .successRet then ⟨ret, after.payload, after.prints⟩
        else
          ⟨if after.writeSize < 0 ∨ after.remainSize < 0 then .failureRet
            else .successRet, after.payload, after.prints⟩)
      rest := by
  obtain ⟨calls, prints, inside_iff, uncut_iff⟩ := whole.prints
  rw [begins, List.nil_append] at prints
  have positive : ([] : List UInt8).length < dmMsgReportBufLen := by decide
  let generated : Generated :=
    if ret ≠ .successRet then ⟨ret, after.payload, after.prints⟩
    else
      ⟨if after.writeSize < 0 ∨ after.remainSize < 0 then .failureRet
        else .successRet, after.payload, after.prints⟩
  have same : generated.prints = calls ∧ generated.payload = after.payload ∧
      (generated.ret = .successRet ↔
        ret = .successRet ∧ ¬(after.writeSize < 0 ∨ after.remainSize < 0)) := by
    unfold generated
    by_cases success : ret = .successRet
    · rw [if_neg (not_not.mpr success)]
      refine ⟨prints, rfl, ?_⟩
      dsimp only
      split
      · rename_i negative
        exact iff_of_false nofun fun both => both.2 negative
      · rename_i accepted
        exact iff_of_true rfl ⟨success, accepted⟩
    · rw [if_pos success]
      exact ⟨prints, rfl, iff_of_false success fun both => success both.1⟩
  obtain ⟨samePrints, samePayload, ret_iff⟩ := same
  change Meets generated rest
  refine ⟨?_, fun fits => ?_, fun fits text left => ?_⟩
  · rw [samePrints, inside_iff]
  · rw [ret_iff, whole.accepted_iff fits]
  · obtain ⟨payload_eq, short⟩ := whole.left fits text left
    refine ⟨samePayload.trans payload_eq, short, ?_⟩
    rw [samePrints, ← uncut_iff fits (by rw [left]; rfl)]
    exact ⟨fun all => ⟨positive, all⟩, And.right⟩

/-- A loop behind which the sizes are tested. -/
theorem genJoined_meets
    (meets : ∀ loop element payload, payload.length ≤ dmMsgReportBufLen →
      Meets (generate loop element payload) (account loop element payload))
    (short : format.closing.length ≤ dmMsgReportBufLen) (elements : List α)
    (elementPayload : Buffer) {payload : List UInt8}
    (fits : payload.length ≤ dmMsgReportBufLen) :
    Meets (genJoined format generate elements elementPayload payload)
      (joinedAccount format account elements elementPayload.text payload) := by
  cases elements with
  | nil => exact meets_stale fits
  | cons first elements =>
      let s : Joining := ⟨payload, elementPayload.text, 0, 0, []⟩
      have whole : RestMeets s
          (joinFrom format generate 0 (first :: elements) s).2
          (joinFrom format generate 0 (first :: elements) s).1 []
          (restAccount format account 0 (first :: elements) s.element []) := by
        apply joinFrom_cons_meets (meets 0 first s.element elementPayload.fits)
        · exact fun generated =>
            iff_of_true (inside_once ..) (Nat.zero_le _)
        · exact fun _ generated => whole_once_iff ..
        · intro _ generated textFits
          exact joinFrom_meets meets short elements 0 _ _
            (filled_first (by decide) _ _) textFits
      exact whole.meets rfl

/-- An element that is the only one. -/
theorem genSingle_meets
    (meets : ∀ loop element payload, payload.length ≤ dmMsgReportBufLen →
      Meets (generate loop element payload) (account loop element payload))
    (element : α) (elementPayload : Buffer) (payload : List UInt8) :
    Meets (genSingle format generate element elementPayload payload)
      (singleAccount format account element elementPayload.text) := by
  have this := meets 0 element elementPayload.text elementPayload.fits
  unfold genSingle singleAccount
  generalize generate 0 element elementPayload.text = generated at this
  generalize account 0 element elementPayload.text = own at this
  dsimp only
  let text := format.opening ++ generated.payload ++ format.closing
  have inside_iff : (∀ print ∈ generated.prints ++
      [⟨0, dmMsgReportBufLen, text⟩], print.Inside dmMsgReportBufLen) ↔
        own.frontsFit := by
    rw [List.forall_mem_append, List.forall_mem_singleton, this.inside_iff]
    exact and_iff_left (inside_once _ text)
  cases left : own.left with
  | none =>
      have accepted_iff := this.accepted_iff
      rw [left] at accepted_iff
      refine ⟨?_, fun fits => ?_, fun _ _ => nofun⟩
      · split
        · exact this.inside_iff
        · exact inside_iff
      · have failed : generated.ret ≠ .successRet := fun success =>
          absurd ((accepted_iff fits).mp success) Bool.false_ne_true
        rw [if_pos failed]
        exact iff_of_false failed Bool.false_ne_true
  | some kept' =>
      have accepted_iff := this.accepted_iff
      rw [left] at accepted_iff
      refine ⟨?_, fun fits => ?_, fun fits final once => ?_⟩
      · split
        · exact this.inside_iff
        · exact inside_iff
      · obtain ⟨rfl, -, -⟩ := this.left fits kept' left
        rw [if_neg (not_not.mpr ((accepted_iff fits).mpr rfl))]
        exact (meets_once (ret_of_result_iff text) payload).accepted_iff trivial
      · obtain ⟨rfl, -, uncut⟩ := this.left fits kept' left
        rw [if_neg (not_not.mpr ((accepted_iff fits).mpr rfl))]
        obtain ⟨same, short, whole⟩ :=
          (meets_once (ret_of_result_iff text) payload).left trivial final once
        refine ⟨same, short, ?_⟩
        rw [List.forall_mem_append, uncut]
        exact and_congr_right fun _ => whole

/-- The elements of a struct or an array. -/
theorem genElements_meets
    (meets : ∀ loop element payload, payload.length ≤ dmMsgReportBufLen →
      Meets (generate loop element payload) (account loop element payload))
    (short : format.closing.length ≤ dmMsgReportBufLen) (elements : List α)
    (elementPayload : Option Buffer) {payload : List UInt8}
    (fits : payload.length ≤ dmMsgReportBufLen) :
    Meets (genElements format generate elements elementPayload payload)
      (elementsAccount format account elements elementPayload payload) := by
  cases elementPayload with
  | none => exact meets_rejected (by decide) payload
  | some elementPayload =>
      match elements with
      | [] => exact genJoined_meets meets short [] elementPayload fits
      | [only] => exact genSingle_meets meets only elementPayload payload
      | first :: second :: elements =>
          exact genJoined_meets meets short (first :: second :: elements)
            elementPayload fits

end

/-! ## Properties -/

theorem closing_short {mark : List UInt8} (single : mark.length = 1)
    (valueKey : Bool) :
    (mark ++ closing valueKey).length ≤ dmMsgReportBufLen := by
  have brace : (closing true).length = 1 := by decide +kernel
  rw [List.length_append, single]
  cases valueKey with
  | false => decide
  | true =>
      rw [brace]
      decide

theorem structFormat_short (key : Option CString) (valueKey : Bool) :
    (structFormat key valueKey).closing.length ≤ dmMsgReportBufLen := by
  cases key with
  | none => exact (by decide +kernel : (ascii "\x7d").length ≤ 2048)
  | some key => exact closing_short (by decide +kernel) valueKey

theorem dmGenStructPayload_meets (dmStruct : DmTypeStruct) (valueKey : Bool)
    (nodePayload : Option Buffer) {payload : List UInt8}
    (fits : payload.length ≤ dmMsgReportBufLen) :
    Meets (dmGenStructPayload dmStruct valueKey nodePayload payload)
      (structAccount dmStruct valueKey nodePayload payload) :=
  genElements_meets (fun _ _ _ _ => dmGenNodePayload_meets ..)
    (structFormat_short ..) _ _ fits

theorem arrayFormat_short (key : Option CString) (valueKey : Bool) :
    (arrayFormat key valueKey).closing.length ≤ dmMsgReportBufLen :=
  closing_short (by decide +kernel) valueKey

theorem dmGenPropertyPostPayload_meets (property : DmProperty)
    (valueKey : Bool) (memory : PropertyMemory) {payload : List UInt8}
    (fits : payload.length ≤ dmMsgReportBufLen) :
    Meets (dmGenPropertyPostPayload property valueKey memory payload)
      (postAccount property valueKey memory payload) := by
  unfold dmGenPropertyPostPayload postAccount
  cases property.value with
  | node dmNode => exact dmGenNodePayload_meets ..
  | struct dmStruct => exact dmGenStructPayload_meets _ _ _ fits
  | arrayBase dmArrayBase =>
      exact genElements_meets (fun _ _ _ _ => dmGenNodePayload_meets ..)
        (arrayFormat_short ..) _ _ fits
  | arrayStruct dmArrayStruct =>
      exact genElements_meets
        (fun _ _ _ short => dmGenStructPayload_meets _ _ _ short)
        (arrayFormat_short ..) _ _ fits
  | illegal => exact meets_rejected (by decide) payload

theorem genProperty_meets (type : DmType) (valueKey : Bool)
    (property : DmProperty) (memory : PropertyMemory) {payload : List UInt8}
    (fits : payload.length ≤ dmMsgReportBufLen) :
    Meets (genProperty type valueKey property memory payload)
      (propertyAccount type valueKey property memory payload) := by
  unfold genProperty propertyAccount
  cases type with
  | propertyPost => exact dmGenPropertyPostPayload_meets _ _ _ fits
  | propertyDesiredGet => exact genKey_meets property _ payload
  | propertyDesiredDelete => exact genKey_meets property _ payload
  | _ => exact meets_stale fits

theorem dmGenPropertiesPayload_meets (property : Option (List DmProperty))
    (type : DmType) (valueKey : Bool) (payload : Option Buffer)
    (memory : Nat → PropertyMemory) (propertiesPayload : Option Buffer) :
    Meets
      (dmGenPropertiesPayload property type valueKey payload memory
        propertiesPayload)
      (propertiesAccount property type valueKey payload memory
        propertiesPayload) := by
  cases property with
  | none => exact meets_rejected (by decide) _
  | some properties =>
      cases propertiesPayload with
      | none => exact meets_rejected (by decide) _
      | some propertiesPayload =>
          cases payload with
          | none => exact meets_rejected (by decide) _
          | some payload =>
              exact genJoined_meets
                (fun _ _ _ short => genProperty_meets _ _ _ _ short)
                (by decide) properties payload propertiesPayload.fits

/-! ## Bounds -/

/-- No call gets a size that is negative or reaches beyond its array, and in a
success nothing is cut off. -/
def Generated.Bounded (generated : Generated) : Prop :=
  (∀ print ∈ generated.prints, print.Inside dmMsgReportBufLen) ∧
    (generated.ret = .successRet → ∀ print ∈ generated.prints, print.Whole)

/-- Where a piece follows, the text in front of it is no longer than the array;
and what is accepted has not been cut off. -/
def Account.HasRoom (account : Account) : Prop :=
  account.frontsFit ∧ (account.left.isSome → account.uncut)

theorem Meets.bounded_iff {generated : Generated} {account : Account}
    (meets : Meets generated account) :
    generated.Bounded ↔ account.HasRoom := by
  unfold Generated.Bounded Account.HasRoom
  rw [meets.inside_iff]
  refine and_congr_right fun fits => ?_
  rw [meets.accepted_iff fits]
  refine imp_congr_right fun accepted => ?_
  obtain ⟨text, left⟩ := Option.isSome_iff_exists.mp accepted
  exact (meets.left fits text left).2.2

/-- A payload is generated within its bounds exactly if its account has room. -/
theorem dmGenPropertiesPayload_bounded_iff
    (property : Option (List DmProperty)) (type : DmType) (valueKey : Bool)
    (payload : Option Buffer) (memory : Nat → PropertyMemory)
    (propertiesPayload : Option Buffer) :
    (dmGenPropertiesPayload property type valueKey payload memory
        propertiesPayload).Bounded ↔
      (propertiesAccount property type valueKey payload memory
        propertiesPayload).HasRoom :=
  (dmGenPropertiesPayload_meets ..).bounded_iff

/-- A member of a struct with a string of 1100 bytes. -/
def longMember : DmNode :=
  ⟨some ⟨ascii "k", by decide +kernel⟩,
    .string (some ⟨List.replicate 1100 97, fun mem =>
      absurd (List.eq_of_mem_replicate mem) (by decide)⟩)⟩

theorem zero_not_mem_s : 0 ∉ ascii "s" := by decide +kernel

/-- A struct of three such members. -/
def longStruct : DmProperty :=
  ⟨.struct ⟨some ⟨ascii "s", zero_not_mem_s⟩,
    [longMember, longMember, longMember]⟩, 0⟩

/-- Behind two members of a struct the third gets a negative size. -/
theorem longStruct_overruns :
    ¬∀ (property : Option (List DmProperty)) (type : DmType)
      (valueKey : Bool) (payload : Option Buffer)
      (memory : Nat → PropertyMemory) (propertiesPayload : Option Buffer),
      (dmGenPropertiesPayload property type valueKey payload memory
        propertiesPayload).Bounded := by
  intro all
  let array : Option Buffer := some ⟨[], Nat.zero_le _⟩
  have inside := (all (some [longStruct]) .propertyPost true array
    (fun _ => ⟨array, fun _ => array⟩) array).1
  exact absurd inside (by decide +kernel)

end Dm
end UIoT
