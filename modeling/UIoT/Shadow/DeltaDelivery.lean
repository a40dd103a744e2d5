import UIoT.Json.FirstMember
import UIoT.Shadow.Correlation
import UIoT.Shadow.Values

/-!
# Delivering a delta

`_handle_delta` calls the callback of every registered property for which
`find_value_if_key_match` answers.  The search behind it compares only the
beginning of a key, passes over empty strings, and takes every text that begins
with `null` for the null of the grammar.  It reads no further than to the member
it answers with.
-/

namespace UIoT
namespace Shadow

open Json (PassesBy Scanned documentSteps firstPart slice)
open JsonSyntax

/-! ## What a delta asks for -/

/-- The value is null. -/
def IsNull : Value → Bool
  | .literal .null => true
  | _ => false

/-- The member asks to change the property of the key. -/
def Asks (key : List UInt8) (member : Member Value) : Prop :=
  member.Named key ∧ IsNull member.value = false

instance (key : List UInt8) (member : Member Value) :
    Decidable (Asks key member) :=
  inferInstanceAs (Decidable (_ ∧ _))

/-- The value a document has for the property of a key. -/
def desiredValue (document : ObjectDocument) (key : List UInt8) :
    Option (List UInt8) :=
  (document.members.find? fun member => Asks key member).map
    fun member => member.value.content

/-- The callbacks called are those of the properties the document has a value
for, each once and with its value. -/
def DeliversDelta (s : UIoTShadow) (document : ObjectDocument)
    (behind : List UInt8) (env : MessageEnv) : Prop :=
  (handleDelta s (document.text ++ 0 :: behind) env).calls =
    s.calls ++ s.propertyList.reverse.filterMap fun handler =>
      (desiredValue document handler.property.key.bytes).map
        (Call.property handler)

/-! ## What a delta gets -/

/-- The first member the search meets for the key, one whose key begins with it
and that is not empty. -/
def metMember (document : ObjectDocument) (key : List UInt8) :
    Option (Member Value) :=
  document.members.find? fun member => Json.Member.Meets key member

/-- The first member met for the key has the value asked for, which does not
look like null; or nothing is asked for, and the member met looks like null. -/
def Unmistaken (document : ObjectDocument) (key : List UInt8) : Prop :=
  match desiredValue document key with
  | some value =>
      ¬NullLike value ∧
        ∃ member, metMember document key = some member ∧
          slice member.value = value
  | none =>
      ∀ member, metMember document key = some member →
        NullLike (slice member.value)

/-- The search for the key keeps its way: the key is no path and has no quote,
and the scan comes through to the member met; or it comes through to the end, as
no member answers even to the first part of the key. -/
def Sought (document : ObjectDocument) (key : List UInt8) : Prop :=
  (46 ∉ key ∧ 34 ∉ key ∧ Scanned key document) ∨
    ((∀ byte ∈ document.before.bytes, byte = 32) ∧
      PassesBy (firstPart key) (documentSteps document))

/-- The iterator over the properties and the copy of a value for this one can
be allocated. -/
def MessageEnv.serves (env : MessageEnv) (handler : PropertyHandler) : Bool :=
  env.propertyIteratorAllocated && env.valueCopied handler

/-- The searches for the registered properties that are served keep their
way. -/
def Readable (s : UIoTShadow) (document : ObjectDocument) (env : MessageEnv) :
    Prop :=
  ∀ handler ∈ s.propertyList, env.serves handler = true →
    Sought document handler.property.key.bytes

/-- No registered property that is served is mistaken, and none is asked for
that is not served. -/
def AllUnmistaken (s : UIoTShadow) (document : ObjectDocument)
    (env : MessageEnv) : Prop :=
  ∀ handler ∈ s.propertyList,
    if env.serves handler then
      Unmistaken document handler.property.key.bytes
    else desiredValue document handler.property.key.bytes = none

/-! ## One property -/

theorem findValueIfKeyMatch_eq {document : ObjectDocument}
    {property : DeviceProperty} (sought : Sought document property.key.bytes)
    (behind : List UInt8) :
    findValueIfKeyMatch true (document.text ++ 0 :: behind) property =
      ((metMember document property.key.bytes).map fun member =>
        slice member.value).filter fun text => ¬NullLike text := by
  have nonzero := property.key.zero_not_mem
  rw [findValueIfKeyMatch_filter, Json.liteJsonCopyOf_true]
  rcases sought with ⟨undotted, unquoted, scanned⟩ | ⟨spaces, passed⟩
  · rw [Json.liteJsonValueOf_members scanned undotted unquoted nonzero behind,
      metMember]
  · have unmet : metMember document property.key.bytes = none := by
      apply List.find?_eq_none.mpr
      intro member mem
      have members : (documentSteps document).map Json.Step.member =
          document.members := Json.objectSteps_member ..
      simpa using passed.not_meets (members.symm ▸ mem)
    rw [Json.liteJsonValueOf_passesBy spaces passed nonzero behind, unmet,
      Option.map_none]

/-- The search answers the value asked for exactly if the key is not
mistaken. -/
theorem findValueIfKeyMatch_iff {document : ObjectDocument}
    {property : DeviceProperty} (sought : Sought document property.key.bytes)
    (behind : List UInt8) :
    findValueIfKeyMatch true (document.text ++ 0 :: behind) property =
        desiredValue document property.key.bytes ↔
      Unmistaken document property.key.bytes := by
  rw [findValueIfKeyMatch_eq sought, Unmistaken]
  cases desiredValue document property.key.bytes with
  | none =>
      simp only [Option.filter_eq_none_iff, Option.map_eq_some_iff,
        forall_exists_index, and_imp, decide_eq_true_eq, not_not]
      constructor
      · exact fun null member met => null _ member met rfl
      · rintro null _ member met rfl
        exact null member met
  | some value =>
      simp only [Option.filter_eq_some_iff, Option.map_eq_some_iff,
        decide_eq_true_eq]
      exact and_comm

/-! ## Calls -/

theorem uiotShadowPublishOperationToCloud_calls (s : UIoTShadow)
    (method : Method) (pJsonDoc : List UInt8) (env : RequestEnv) :
    (uiotShadowPublishOperationToCloud s method pJsonDoc env).1.calls =
      s.calls := by
  unfold uiotShadowPublishOperationToCloud
  dsimp only
  split
  · rfl
  · split <;> rfl

theorem uiotShadowUpdateProperty_calls (s : UIoTShadow) (params : RequestParams)
    (env : RequestEnv) :
    (uiotShadowUpdateProperty s params env).1.calls = s.calls := by
  have loop : ∀ (properties : List DeviceProperty) (s : UIoTShadow),
      (properties.foldl (fun s property =>
        shadowCommonUpdateProperty s property params.method
          (env.findAllocated property)) s).calls = s.calls := by
    intro properties
    induction properties with
    | nil => exact fun _ => rfl
    | cons property properties inductionHypothesis =>
        intro s
        rw [List.foldl_cons, inductionHypothesis]
        unfold shadowCommonUpdateProperty
        dsimp only
        split <;> rfl
  unfold uiotShadowUpdateProperty
  split
  · dsimp only
    split
    · rfl
    · split <;> rfl
  split
  · rfl
  split
  · rfl
  · exact loop ..

theorem makeQueuedRequest_calls (s : UIoTShadow)
    (pJsonDoc : Option (List UInt8)) (sizeOfBuffer : Nat)
    (params : RequestParams) (env : RequestEnv) :
    (makeQueuedRequest s pJsonDoc sizeOfBuffer params env).1.calls =
      s.calls := by
  unfold makeQueuedRequest
  split
  · rfl
  · rename_i document _
    have publishes :=
      uiotShadowPublishOperationToCloud_calls s params.method document env
    dsimp only
    split
    · exact publishes
    · exact (uiotShadowUpdateProperty_calls ..).trans publishes

/-- Making a request calls nothing. -/
theorem uiotShadowMakeRequest_calls (s : UIoTShadow)
    (pJsonDoc : Option (List UInt8)) (sizeOfBuffer : Nat)
    (params : Option RequestParams) (env : RequestEnv) :
    (uiotShadowMakeRequest s pJsonDoc sizeOfBuffer params env).1.calls =
      s.calls := by
  cases params with
  | none => rfl
  | some params =>
      rw [uiotShadowMakeRequest_eq, makeQueuedRequest_calls]

/-- The properties gone through are called for as the search answers. -/
theorem foldl_handleProperty_calls (deltaStr : List UInt8)
    (env : MessageEnv) (handlers : List PropertyHandler)
    (state : UIoTShadow × Option RequestParams × List PropertyHandler) :
    (handlers.foldl (handleProperty deltaStr env) state).1.calls =
      state.1.calls ++ handlers.filterMap fun handler =>
        (findValueIfKeyMatch (env.valueCopied handler) deltaStr
          handler.property).map (Call.property handler) := by
  induction handlers generalizing state with
  | nil => exact (List.append_nil _).symm
  | cons handler handlers inductionHypothesis =>
      obtain ⟨s, params, done⟩ := state
      rw [List.foldl_cons, inductionHypothesis, List.filterMap_cons,
        handleProperty]
      cases findValueIfKeyMatch (env.valueCopied handler) deltaStr
        handler.property with
      | none => rfl
      | some value => exact List.append_assoc ..

theorem findValueIfKeyMatch_uncopied (deltaStr : List UInt8)
    (property : DeviceProperty) :
    findValueIfKeyMatch false deltaStr property = none := by
  rw [findValueIfKeyMatch_filter, Json.liteJsonCopyOf_false, Option.filter_none]

/-- What `_handle_delta` finds for a property. -/
def foundValue (deltaStr : List UInt8) (env : MessageEnv)
    (handler : PropertyHandler) : Option (List UInt8) :=
  if env.serves handler then findValueIfKeyMatch true deltaStr handler.property
  else none

/-- The calls `_handle_delta` makes. -/
theorem handleDelta_calls (s : UIoTShadow) (deltaStr : List UInt8)
    (env : MessageEnv) :
    (handleDelta s deltaStr env).calls =
      s.calls ++ s.propertyList.reverse.filterMap fun handler =>
        (foundValue deltaStr env handler).map (Call.property handler) := by
  have locked : (s.lock .property).propertyList = s.propertyList := rfl
  unfold handleDelta
  dsimp only
  rw [locked]
  by_cases iterates : env.propertyIteratorAllocated = true
  · have found (handler : PropertyHandler) :
        findValueIfKeyMatch (env.valueCopied handler) deltaStr
            handler.property =
          foundValue deltaStr env handler := by
      unfold foundValue MessageEnv.serves
      rw [iterates, Bool.true_and]
      cases env.valueCopied handler with
      | false => exact findValueIfKeyMatch_uncopied ..
      | true => rfl
    rw [if_neg (by simp [iterates]), uiotShadowMakeRequest_calls]
    simp only [← found]
    exact foldl_handleProperty_calls ..
  · have nothing (handler : PropertyHandler) :
        foundValue deltaStr env handler = none :=
      if_neg (by simp [MessageEnv.serves, iterates])
    simp only [nothing, Option.map_none, List.filterMap_none, List.append_nil]
    by_cases some : s.propertyList.length ≠ 0
    · rw [if_pos ⟨some, by simpa using iterates⟩]
      rfl
    · have empty : s.propertyList = [] :=
        List.length_eq_zero_iff.mp (Classical.not_not.mp some)
      rw [if_neg fun missing => some missing.1, uiotShadowMakeRequest_calls,
        empty]
      rfl

/-- Calls that tell their handlers are the same only if each handler gets the
same. -/
theorem filterMap_call_iff (handlers : List PropertyHandler)
    (first second : PropertyHandler → Option (List UInt8)) :
    (handlers.filterMap fun handler =>
        (first handler).map (Call.property handler)) =
      (handlers.filterMap fun handler =>
        (second handler).map (Call.property handler)) ↔
      ∀ handler ∈ handlers, first handler = second handler := by
  have called : ∀ (answer : PropertyHandler → Option (List UInt8)),
      ∀ handler ∈ handlers, ∀ value,
        Call.property handler value ∈
            (handlers.filterMap fun handler =>
              (answer handler).map (Call.property handler)) ↔
          answer handler = some value := by
    intro answer handler mem value
    simp only [List.mem_filterMap, Option.map_eq_some_iff, Call.property.injEq]
    constructor
    · rintro ⟨other, -, text, answered, rfl, rfl⟩
      exact answered
    · exact fun answered => ⟨handler, mem, value, answered, rfl, rfl⟩
  constructor
  · intro same handler mem
    apply Option.ext
    intro value
    rw [← called first handler mem, ← called second handler mem, same]
  · intro same
    exact List.filterMap_congr fun handler mem => by rw [same handler mem]

/-! ## Deliveries -/

/-- A delta is delivered where it is readable and no property is mistaken; and
where it is readable it is delivered only then. -/
theorem handleDelta_delivers_iff (s : UIoTShadow) (document : ObjectDocument)
    (behind : List UInt8) (env : MessageEnv) :
    (Readable s document env ∧ AllUnmistaken s document env →
        DeliversDelta s document behind env) ∧
      (Readable s document env → DeliversDelta s document behind env →
        AllUnmistaken s document env) := by
  have delivers_iff : Readable s document env →
      (DeliversDelta s document behind env ↔ AllUnmistaken s document env) := by
    intro readable
    unfold DeliversDelta AllUnmistaken
    rw [handleDelta_calls, List.append_cancel_left_eq, filterMap_call_iff]
    simp only [List.mem_reverse]
    refine forall₂_congr fun handler mem => ?_
    unfold foundValue
    by_cases served : env.serves handler = true
    · rw [if_pos served, if_pos served]
      exact findValueIfKeyMatch_iff (readable handler mem served) behind
    · rw [if_neg served, if_neg served]
      exact eq_comm
  exact ⟨fun ⟨readable, unmistaken⟩ => (delivers_iff readable).mpr unmistaken,
    fun readable => (delivers_iff readable).mp⟩

/-- A registered property of a key without data. -/
def registered (key : CString) : PropertyHandler := ⟨⟨key, none⟩, 1⟩

/-- A property gets the value of a member whose key only begins with its own. -/
theorem prefixSibling_misdelivered :
    ¬∀ (s : UIoTShadow) (document : ObjectDocument) (behind : List UInt8)
      (env : MessageEnv), DeliversDelta s document behind env := by
  intro all
  have delivers := all
    { sampleShadow true with propertyList := [registered ⟨[97], by decide⟩] }
    Json.prefixSibling [] sampleMessageEnv
  unfold DeliversDelta at delivers
  rw [handleDelta_calls] at delivers
  exact absurd delivers (by decide +kernel)

end Shadow
end UIoT
