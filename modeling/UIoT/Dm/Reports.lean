import UIoT.Dm.Commands
import UIoT.Dm.PayloadCuts

/-!
# Reports

What a device reports is generated into one array, printed with the request id
into a second one and published.  The generators may cut their texts off, but no
report is published that is not the whole document.
-/

namespace UIoT
namespace Dm

open BoundedPrinting JsonSyntax

/-! ## Publishing -/

/-- `DM_EVENT_POST_BUF_LEN` -/
def dmEventPostBufLen : Nat := 2048

/-- `FAILURE_RET` -/
def failureRet : Int := -1

/-- What is published, and at which service level. -/
structure Sent where
  qos : QoS
  publication : Publication
  deriving DecidableEq

/-- What a report returns, and what it publishes. -/
structure Report where
  ret : Int
  published : List Sent
  deriving DecidableEq

/-- What a report gets from its surroundings: for which types a callback was
registered and with it the template of the topic, what can be allocated, and
what `IOT_MQTT_Publish` answers. -/
structure ReportEnv where
  registered : DmType → Bool
  msgReportAllocated : Bool
  topicAllocated : Bool
  iotMqttPublish : Sent → Int

/-- A report that fails before anything is published. -/
def Report.failed : Report := ⟨failureRet, []⟩

/-- What follows the two names in the upstream topic of `g_dm_mqtt_cb`.  The one
for commands has a place for a third string. -/
def upstreamSuffix : DmType → Option String
  | .propertyRestore => some "/tmodel/property/restore"
  | .propertyPost => some "/tmodel/property/post"
  | .propertySet => some "/tmodel/property/set_reply"
  | .propertyDesiredGet => some "/tmodel/property/desired/get"
  | .propertyDesiredDelete => some "/tmodel/property/desired/delete"
  | .eventPost => some "/tmodel/event/post"
  | .command => none

/-- The upstream topic with its strings. -/
def upstreamTopic (handle : DmMqtt) (suffix : String) : List UInt8 :=
  ascii "/$system/" ++ handle.productSn.bytes ++ ascii "/" ++
    handle.deviceSn.bytes ++ ascii suffix

/-- `_dm_mqtt_publish` -/
def dmMqttPublish (env : ReportEnv) (topicName : List UInt8) (qos : Int)
    (msg : List UInt8) : Report :=
  let sent : Sent := ⟨if qos = 0 then .qos0 else .qos1, ⟨topicName, msg⟩⟩
  let ret := env.iotMqttPublish sent
  ⟨if ret < 0 then failureRet else ret, [sent]⟩

/-- What the reports begin with. -/
def reportStart (requestId : Int32) : List UInt8 :=
  ascii "\x7b\"RequestID\": \"" ++ decimal requestId.toInt

/-- A report of properties, as it is formatted. -/
def propertyReportText (requestId : Int32) (payload : List UInt8) :
    DmType → Option (List UInt8)
  | .propertyRestore => some (reportStart requestId ++ ascii "\"\x7d")
  | .propertyPost =>
      some (reportStart requestId ++ ascii "\", \"Property\": \x7b" ++ payload ++
        ascii "\x7d\x7d")
  | .propertyDesiredGet =>
      some (reportStart requestId ++ ascii "\", \"Require\": [" ++ payload ++
        ascii "]\x7d")
  | .propertyDesiredDelete =>
      some (reportStart requestId ++ ascii "\", \"Delete\": \x7b" ++ payload ++
        ascii "\x7d\x7d")
  | _ => none

/-- A report of an event, as it is formatted. -/
def eventReportText (requestId : Int32) (identifier payload : List UInt8) :
    List UInt8 :=
  reportStart requestId ++ ascii "\", \"Identifier\": \"" ++ identifier ++
    ascii "\", \"Output\": \x7b" ++ payload ++ ascii "\x7d\x7d"

/-- A text is printed and the result is tested. -/
def printTested (bufLen : Nat) (formatted : List UInt8) :
    Option (List UInt8) :=
  let printed := Shadow.halSnprintf [] 0 bufLen formatted
  let ret := printed.2
  if ret < 0 ∨ ret ≥ bufLen then none else some printed.1

/-- `_dm_mqtt_gen_property_payload` -/
def dmMqttGenPropertyPayload (bufLen : Nat) (type : DmType)
    (requestId : Int32) (payload : List UInt8) : Option (List UInt8) :=
  (propertyReportText requestId payload type).bind (printTested bufLen)

/-- `_dm_mqtt_gen_event_payload` -/
def dmMqttGenEventPayload (bufLen : Nat) (requestId : Int32)
    (identifier payload : List UInt8) : Option (List UInt8) :=
  printTested bufLen (eventReportText requestId identifier payload)

/-- The body that the reports have, with what generates their text.  There is no
result where the topic has no template or one for another number of strings. -/
def reportPublish (handle : DmMqtt) (env : ReportEnv) (type : DmType)
    (text : Option (List UInt8)) : Option Report :=
  if !env.msgReportAllocated then some .failed
  else if !env.topicAllocated then some .failed
  else if !env.registered type then none
  else
    match upstreamSuffix type with
    | none => none
    | some suffix =>
        match dmMqttGenTopicName dmTopicBufLen
            (upstreamTopic handle suffix) with
        | none => some .failed
        | some topic =>
            match text with
            | none => some .failed
            | some msgReport => some (dmMqttPublish env topic 1 msgReport)

/-- `dm_mqtt_property_report_publish` -/
def dmMqttPropertyReportPublish (handle : DmMqtt) (env : ReportEnv)
    (type : DmType) (requestId : Int32) (payload : List UInt8) :
    Option Report :=
  reportPublish handle env type
    (dmMqttGenPropertyPayload dmMsgReportBufLen type requestId payload)

/-- `dm_mqtt_event_publish` -/
def dmMqttEventPublish (handle : DmMqtt) (env : ReportEnv) (requestId : Int32)
    (identifier payload : List UInt8) : Option Report :=
  reportPublish handle env .eventPost
    (dmMqttGenEventPayload dmEventPostBufLen requestId identifier payload)

/-- The arrays of a report that is generated: the one for all properties, the
one for a property, and those inside of it. -/
structure ReportMemory where
  properties : Option Buffer
  property : Option Buffer
  inner : Nat → PropertyMemory

/-- All arrays can be allocated. -/
def ReportMemory.Allocated (memory : ReportMemory) : Prop :=
  memory.properties.isSome ∧ memory.property.isSome ∧
    ∀ loop, (memory.inner loop).Allocated

/-- What is generated of properties. -/
def reportGenerated (memory : ReportMemory)
    (property : Option (List DmProperty)) (type : DmType) (valueKey : Bool) :
    Generated :=
  dmGenPropertiesPayload property type valueKey memory.property memory.inner
    memory.properties

/-- The body of the reports that generate what they publish. -/
def publishGenerated (memory : ReportMemory)
    (property : Option (List DmProperty)) (type : DmType) (valueKey : Bool)
    (publish : List UInt8 → Option Report) : Option Report :=
  if memory.properties.isNone then some .failed
  else
    let generated := reportGenerated memory property type valueKey
    if generated.ret = .failureRet then some .failed
    else publish generated.payload

/-- `dm_mqtt_property_report_publish_Ex` -/
def dmMqttPropertyReportPublishEx (handle : DmMqtt) (env : ReportEnv)
    (memory : ReportMemory) (type : DmType) (requestId : Int32)
    (property : Option (List DmProperty)) : Option Report :=
  publishGenerated memory property type true
    (dmMqttPropertyReportPublish handle env type requestId)

/-- `DM_Event_t` -/
structure DmEvent where
  eventIdenty : Option CString
  dmProperty : Option (List DmProperty)

/-- `dm_mqtt_event_publish_Ex` -/
def dmMqttEventPublishEx (handle : DmMqtt) (env : ReportEnv)
    (memory : ReportMemory) (requestId : Int32) (event : DmEvent) :
    Option Report :=
  publishGenerated memory event.dmProperty .propertyPost false
    (dmMqttEventPublish handle env requestId (percentS event.eventIdenty))

/-! ## What generators return -/

/-- Nothing but success or failure. -/
def Generated.Plain (generated : Generated) : Prop :=
  generated.ret = .successRet ∨ generated.ret = .failureRet

theorem plain_ite {failed : Prop} [Decidable failed] (payload : List UInt8)
    (prints : List Print) :
    Generated.Plain
      ⟨if failed then .failureRet else .successRet, payload, prints⟩ := by
  unfold Generated.Plain
  dsimp only
  split
  · exact .inr rfl
  · exact .inl rfl

theorem dmGenNodePayload_plain (dmNode : DmNode) (valueKey : Bool)
    (payload : List UInt8) :
    (dmGenNodePayload dmNode valueKey payload).Plain := by
  unfold dmGenNodePayload
  cases dmNode.value.printed with
  | none => exact .inr rfl
  | some value => exact plain_ite _ _

theorem genKey_plain (property : DmProperty) (text : List UInt8 → List UInt8)
    (payload : List UInt8) : (genKey property text payload).Plain := by
  unfold genKey
  cases property.value.key with
  | none => exact .inr rfl
  | some key => exact plain_ite _ _

section

variable {α : Type} {format : Format}
  {generate : Nat → α → List UInt8 → Generated}

theorem joinFrom_plain
    (each : ∀ loop element payload, (generate loop element payload).Plain)
    (loop : Nat) (elements : List α) (s : Joining) :
    (joinFrom format generate loop elements s).1 = .successRet ∨
      (joinFrom format generate loop elements s).1 = .failureRet := by
  induction elements generalizing loop s with
  | nil => exact .inl rfl
  | cons element elements inductionHypothesis =>
      unfold joinFrom
      dsimp only
      split
      · exact each loop element s.element
      · exact inductionHypothesis (loop + 1) _

theorem genJoined_plain
    (each : ∀ loop element payload, (generate loop element payload).Plain)
    (elements : List α) (elementPayload : Buffer) (payload : List UInt8) :
    (genJoined format generate elements elementPayload payload).Plain := by
  unfold genJoined
  dsimp only
  split
  · exact joinFrom_plain each 0 elements _
  · exact plain_ite _ _

theorem genElements_plain
    (each : ∀ loop element payload, (generate loop element payload).Plain)
    (elements : List α) (elementPayload : Option Buffer)
    (payload : List UInt8) :
    (genElements format generate elements elementPayload payload).Plain := by
  unfold genElements
  split
  · exact .inr rfl
  · unfold genSingle
    dsimp only
    split
    · exact each 0 _ _
    · exact plain_ite _ _
  · exact genJoined_plain each _ _ payload

end

theorem dmGenStructPayload_plain (dmStruct : DmTypeStruct) (valueKey : Bool)
    (nodePayload : Option Buffer) (payload : List UInt8) :
    (dmGenStructPayload dmStruct valueKey nodePayload payload).Plain :=
  genElements_plain (fun _ dmNode payload =>
    dmGenNodePayload_plain dmNode false payload) ..

theorem genProperty_plain (type : DmType) (valueKey : Bool)
    (property : DmProperty) (memory : PropertyMemory)
    (payload : List UInt8) :
    (genProperty type valueKey property memory payload).Plain := by
  cases type with
  | propertyPost =>
      unfold genProperty dmGenPropertyPostPayload
      cases property.value with
      | node dmNode => exact dmGenNodePayload_plain ..
      | struct dmStruct => exact dmGenStructPayload_plain ..
      | arrayBase dmArrayBase =>
          exact genElements_plain (fun _ dmNode payload =>
            dmGenNodePayload_plain dmNode false payload) ..
      | arrayStruct dmArrayStruct =>
          exact genElements_plain (fun loop dmStruct payload =>
            dmGenStructPayload_plain dmStruct false _ payload) ..
      | illegal => exact .inr rfl
  | propertyDesiredGet =>
      unfold genProperty dmGenPropertyDesiredPayload
      exact genKey_plain property _ payload
  | propertyDesiredDelete =>
      unfold genProperty dmGenPropertyDeletePayload
      exact genKey_plain property _ payload
  | _ => exact .inl rfl

theorem dmGenPropertiesPayload_plain (property : Option (List DmProperty))
    (type : DmType) (valueKey : Bool) (payload : Option Buffer)
    (memory : Nat → PropertyMemory) (propertiesPayload : Option Buffer) :
    (dmGenPropertiesPayload property type valueKey payload memory
      propertiesPayload).Plain := by
  unfold dmGenPropertiesPayload
  split
  · exact genJoined_plain (fun loop property payload =>
      genProperty_plain type valueKey property (memory loop) payload) ..
  · exact .inr rfl

/-! ## Documents -/

/-- The value is this string. -/
def IsText (bytes : List UInt8) (value : Value) : Prop :=
  ∃ items, value = .string items ∧ stringValue items = bytes

/-- The members of the document have these keys and values, in their order. -/
def Says (fields : List (String × (Value → Prop)))
    (document : ObjectDocument) : Prop :=
  List.Forall₂
    (fun (field : String × (Value → Prop)) member =>
      stringValue member.key = ascii field.1 ∧ field.2 member.value)
    fields document.members

/-- The member is the version of a property under its key. -/
def IsVersion (property : DmProperty) (member : Member Value) : Prop :=
  stringValue member.key = property.keyBytes ∧
    ∃ gap version, member.value = .object gap [version] ∧
      stringValue version.key = ascii "version" ∧
      ∃ number : Number, version.value = .number number ∧
        number.value = property.desiredVer.toInt

/-- The value has all properties that are reported, in their order: posted as
the members of an object, of those that are desired the keys, and of those that
are no longer desired the versions. -/
def Lists (type : DmType) (valueKey : Bool) (properties : List DmProperty)
    (value : Value) : Prop :=
  match type with
  | .propertyDesiredGet =>
      ∃ gap elements, value = .array gap elements ∧
        List.Forall₂
          (fun property element => IsText property.keyBytes element.value)
          properties elements
  | .propertyDesiredDelete =>
      ∃ gap members, value = .object gap members ∧
        List.Forall₂ IsVersion properties members
  | _ =>
      ∃ gap members, value = .object gap members ∧
        List.Forall₂ (RendersProperty valueKey) properties members

/-- The name of the member that has the properties. -/
def partName : DmType → String
  | .propertyDesiredGet => "Require"
  | .propertyDesiredDelete => "Delete"
  | _ => "Property"

/-- The document reports the properties with the request id. -/
def ReportsProperties (type : DmType) (requestId : Int32)
    (properties : List DmProperty) : ObjectDocument → Prop :=
  Says [("RequestID", IsText (decimal requestId.toInt)),
    (partName type, Lists type true properties)]

/-- The document reports the event with the request id. -/
def ReportsEvent (requestId : Int32) (identifier : List UInt8)
    (properties : List DmProperty) : ObjectDocument → Prop :=
  Says [("RequestID", IsText (decimal requestId.toInt)),
    ("Identifier", IsText identifier),
    ("Output", Lists .propertyPost false properties)]

/-- A key and a value as they are written. -/
def fieldText (field : String × Value) : List UInt8 :=
  ascii "\"" ++ ascii field.1 ++ ascii "\": " ++ field.2.text

theorem quotes : ascii "\"" = [34] ∧ ascii "\": " = [34, 58, 32] := by
  decide +kernel

theorem braces : ascii "\x7b" = [123] ∧ ascii "\x7d" = [125] := by
  decide +kernel

theorem brackets : ascii "[" = [91] ∧ ascii "]" = [93] := by decide +kernel

/-- Keys and values that are joined in braces are a document. -/
theorem exists_document {fields : List (String × Value)}
    (plain : ∀ name ∈ fields.map Prod.fst, ∀ byte ∈ ascii name,
      PlainByte byte) :
    ∃ document : ObjectDocument,
      document.text =
        ascii "\x7b" ++ joined fieldText fields ++ ascii "\x7d" ∧
      List.Forall₂
        (fun field member =>
          stringValue member.key = ascii field.1 ∧ member.value = field.2)
        fields document.members := by
  have each : ∀ field ∈ fields, ∃ member : Member Value,
      (stringValue member.key = ascii field.1 ∧ member.value = field.2) ∧
        memberText member = fieldText field ∧ member.between = .space := by
    intro field mem
    obtain ⟨items, raw, stands⟩ :=
      exists_items (plain field.1 (List.mem_map_of_mem mem))
    refine ⟨.spaced items field.2, ⟨stands, rfl⟩, ?_, rfl⟩
    rw [memberText_spaced, raw, fieldText, quotes.1, quotes.2]
    simp
  obtain ⟨members, all, text⟩ := exists_members each
  refine ⟨⟨.none, .none, members, .none⟩, ?_, all⟩
  rw [ObjectDocument.text, ObjectDocument.value, Value.text, text, braces.1,
    braces.2]
  simp [Blanks.none]

/-- A document says what its fields say. -/
theorem Says.of_fields {parts : List (String × (Value → Prop))}
    {fields : List (String × Value)} {document : ObjectDocument}
    (said : List.Forall₂
      (fun part field => part.1 = field.1 ∧ part.2 field.2) parts fields)
    (all : List.Forall₂
      (fun field member =>
        stringValue member.key = ascii field.1 ∧ member.value = field.2)
      fields document.members) :
    Says parts document := by
  unfold Says
  generalize document.members = members at all
  induction said generalizing members with
  | nil =>
      cases all
      exact .nil
  | cons means rest inductionHypothesis =>
      cases all with
      | cons written others =>
          refine .cons ⟨?_, ?_⟩ (inductionHypothesis _ others)
          · rw [means.1]
            exact written.1
          · rw [written.2]
            exact means.2

/-- A string that needs no escape, in quotes. -/
theorem exists_text {bytes : List UInt8}
    (plain : ∀ byte ∈ bytes, PlainByte byte) :
    ∃ value, IsText bytes value ∧
      value.text = ascii "\"" ++ bytes ++ ascii "\"" := by
  obtain ⟨items, raw, stands⟩ := exists_items plain
  refine ⟨.string items, ⟨items, rfl, stands⟩, ?_⟩
  rw [Value.text, raw, quotes.1]
  rfl

theorem decimal_plain (number : Int) :
    ∀ byte ∈ decimal number, PlainByte byte := by
  have digit : ∀ byte ∈ DecimalDigits.digits number.natAbs,
      PlainByte byte := by
    intro byte mem
    have lower := (DecimalDigits.digits_range _ byte mem).1
    have upper := (DecimalDigits.digits_range _ byte mem).2
    refine ⟨UInt8.le_trans (by decide) lower, ?_, ?_⟩
    · rintro rfl
      exact absurd lower (by decide)
    · rintro rfl
      exact absurd upper (by decide)
  by_cases negative : number < 0
  · rw [Shadow.decimal_of_neg negative]
    exact List.forall_mem_cons.mpr ⟨by decide, digit⟩
  · rw [Shadow.decimal_of_nonneg (by omega)]
    exact digit

/-- A version under its key is a member. -/
theorem exists_version {property : DmProperty}
    (plain : ∀ byte ∈ property.keyBytes, PlainByte byte) (valueKey : Bool) :
    ∃ member, IsVersion property member ∧
      memberText member =
        property.reportText .propertyDesiredDelete valueKey ∧
      member.between = .space := by
  obtain ⟨items, raw, stands⟩ := exists_items plain
  obtain ⟨names, name, named⟩ := exists_items
    (by decide +kernel : ∀ byte ∈ ascii "version", PlainByte byte)
  obtain ⟨number, text, value⟩ :=
    Shadow.decimal_integer property.desiredVer.toInt
  have behind : ascii "\": \x7b\"version\": " =
      [34, 58, 32, 123, 34] ++ ascii "version" ++ [34, 58, 32] := by
    decide +kernel
  refine ⟨.spaced items (.object .none [.spaced names (.number number)]),
    ⟨stands, .none, _, rfl, named, number, rfl, value⟩, ?_, rfl⟩
  have written : (Value.number number).text = decimal property.desiredVer.toInt
      := text
  rw [memberText_spaced, Value.text, membersText, memberText_spaced, raw, name,
    written, DmProperty.reportText, quotes.1, behind, braces.2]
  simp [Blanks.none]

/-- What is printed around the properties of a report. -/
def partBrackets : DmType → List UInt8 × List UInt8
  | .propertyDesiredGet => (ascii "[", ascii "]")
  | _ => (ascii "\x7b", ascii "\x7d")

theorem object_text (members : List (Member Value)) :
    (Value.object .none members).text =
      ascii "\x7b" ++ membersText members ++ ascii "\x7d" := by
  rw [Value.text, braces.1, braces.2]
  simp [Blanks.none]

/-- The properties of a report are a value. -/
theorem exists_lists (type : DmType) (valueKey : Bool)
    {properties : List DmProperty}
    (reportable : ∀ property ∈ properties, Reportable type property) :
    ∃ value, Lists type valueKey properties value ∧
      value.text = (partBrackets type).1 ++
        reportsText type valueKey properties ++ (partBrackets type).2 := by
  have posted : (∀ property ∈ properties, property.value.Shape) →
      ∃ value, Lists .propertyPost valueKey properties value ∧
        value.text = ascii "\x7b" ++
          joined (DmProperty.text valueKey) properties ++ ascii "\x7d" := by
    intro shapes
    obtain ⟨members, all, text⟩ := exists_members fun property mem =>
      exists_property (shapes property mem) valueKey
    refine ⟨.object .none members, ⟨.none, members, rfl, all⟩, ?_⟩
    rw [object_text, text]
  have keyed {property : DmProperty} {key : CString}
      (found : property.value.key = some (some key)) :
      property.keyBytes = key.bytes := by
    unfold DmProperty.keyBytes
    rw [found]
    rfl
  cases type with
  | propertyPost => exact posted reportable
  | propertyDesiredGet =>
      have each : ∀ property ∈ properties, ∃ value,
          IsText property.keyBytes value ∧
            value.text = property.reportText .propertyDesiredGet valueKey := by
        intro property mem
        obtain ⟨key, found, plain⟩ := reportable property mem
        exact exists_text (keyed found ▸ plain)
      obtain ⟨gap, elements, all, text⟩ := exists_array each
      exact ⟨.array gap elements, ⟨gap, elements, rfl, all⟩, text⟩
  | propertyDesiredDelete =>
      have each : ∀ property ∈ properties, ∃ member,
          IsVersion property member ∧
            memberText member =
              property.reportText .propertyDesiredDelete valueKey ∧
            member.between = .space := by
        intro property mem
        obtain ⟨key, found, plain⟩ := reportable property mem
        exact exists_version (keyed found ▸ plain) valueKey
      obtain ⟨members, all, text⟩ := exists_members each
      refine ⟨.object .none members, ⟨.none, members, rfl, all⟩, ?_⟩
      rw [object_text, text]
      rfl
  | propertyRestore =>
      exact posted fun property mem => (reportable property mem).elim
  | propertySet =>
      exact posted fun property mem => (reportable property mem).elim
  | eventPost =>
      exact posted fun property mem => (reportable property mem).elim
  | command =>
      exact posted fun property mem => (reportable property mem).elim

/-- What is printed as a report of properties is a document. -/
theorem exists_propertyReport {type : DmType} (requestId : Int32)
    {properties : List DmProperty} (nonempty : properties ≠ [])
    (reportable : ∀ property ∈ properties, Reportable type property) :
    ∃ document, ReportsProperties type requestId properties document ∧
      propertyReportText requestId (reportsText type true properties) type =
        some document.text := by
  obtain ⟨id, is_id, id_text⟩ := exists_text (decimal_plain requestId.toInt)
  obtain ⟨value, lists, text⟩ := exists_lists type true reportable
  have plain : ∀ name ∈ ["RequestID", partName type],
      ∀ byte ∈ ascii name, PlainByte byte := by
    cases type <;> decide +kernel
  let fields := [("RequestID", id), (partName type, value)]
  obtain ⟨document, written, all⟩ := @exists_document fields plain
  refine ⟨document, Says.of_fields
    (.cons ⟨rfl, is_id⟩ (.cons ⟨rfl, lists⟩ .nil)) all, ?_⟩
  have start : ascii "\x7b\"RequestID\": \"" =
      ascii "\x7b" ++ (ascii "\"" ++ ascii "RequestID" ++ ascii "\": ") ++
        ascii "\"" := by decide +kernel
  rw [written, joined, List.flatMap_cons, List.flatMap_nil,
    List.append_nil, fieldText, fieldText, id_text, text]
  obtain ⟨property, mem⟩ := List.exists_mem_of_ne_nil properties nonempty
  have possible := reportable property mem
  cases type with
  | propertyPost =>
      have middle : ascii "\", \"Property\": \x7b" =
          ascii "\"" ++ 44 :: 32 :: (ascii "\"" ++ ascii "Property" ++
            ascii "\": ") ++ ascii "\x7b" := by decide +kernel
      have finish : ascii "\x7d\x7d" = ascii "\x7d" ++ ascii "\x7d" := by
        decide +kernel
      rw [propertyReportText, reportStart, start, middle, finish]
      simp only [partName, partBrackets, List.append_assoc, List.cons_append]
  | propertyDesiredGet =>
      have middle : ascii "\", \"Require\": [" =
          ascii "\"" ++ 44 :: 32 :: (ascii "\"" ++ ascii "Require" ++
            ascii "\": ") ++ ascii "[" := by decide +kernel
      have finish : ascii "]\x7d" = ascii "]" ++ ascii "\x7d" := by
        decide +kernel
      rw [propertyReportText, reportStart, start, middle, finish]
      simp only [partName, partBrackets, List.append_assoc, List.cons_append]
  | propertyDesiredDelete =>
      have middle : ascii "\", \"Delete\": \x7b" =
          ascii "\"" ++ 44 :: 32 :: (ascii "\"" ++ ascii "Delete" ++
            ascii "\": ") ++ ascii "\x7b" := by decide +kernel
      have finish : ascii "\x7d\x7d" = ascii "\x7d" ++ ascii "\x7d" := by
        decide +kernel
      rw [propertyReportText, reportStart, start, middle, finish]
      simp only [partName, partBrackets, List.append_assoc, List.cons_append]
  | _ => exact possible.elim

/-- What is printed as a report of an event is a document. -/
theorem exists_eventReport (requestId : Int32) {identifier : List UInt8}
    (plain_identifier : ∀ byte ∈ identifier, PlainByte byte)
    {properties : List DmProperty}
    (shapes : ∀ property ∈ properties, property.value.Shape) :
    ∃ document, ReportsEvent requestId identifier properties document ∧
      eventReportText requestId identifier
        (reportsText .propertyPost false properties) = document.text := by
  obtain ⟨id, is_id, id_text⟩ := exists_text (decimal_plain requestId.toInt)
  obtain ⟨name, is_name, name_text⟩ := exists_text plain_identifier
  obtain ⟨value, lists, text⟩ := exists_lists .propertyPost false shapes
  have plain : ∀ name ∈ ["RequestID", "Identifier", "Output"],
      ∀ byte ∈ ascii name, PlainByte byte := by decide +kernel
  let fields := [("RequestID", id), ("Identifier", name), ("Output", value)]
  obtain ⟨document, written, all⟩ := @exists_document fields plain
  refine ⟨document, Says.of_fields
    (.cons ⟨rfl, is_id⟩ (.cons ⟨rfl, is_name⟩ (.cons ⟨rfl, lists⟩ .nil))) all,
    ?_⟩
  have start : ascii "\x7b\"RequestID\": \"" =
      ascii "\x7b" ++ (ascii "\"" ++ ascii "RequestID" ++ ascii "\": ") ++
        ascii "\"" := by decide +kernel
  have middle : ascii "\", \"Identifier\": \"" =
      ascii "\"" ++ 44 :: 32 :: (ascii "\"" ++ ascii "Identifier" ++
        ascii "\": ") ++ ascii "\"" := by decide +kernel
  have last : ascii "\", \"Output\": \x7b" =
      ascii "\"" ++ 44 :: 32 :: (ascii "\"" ++ ascii "Output" ++
        ascii "\": ") ++ ascii "\x7b" := by decide +kernel
  have finish : ascii "\x7d\x7d" = ascii "\x7d" ++ ascii "\x7d" := by
    decide +kernel
  rw [written, joined, List.flatMap_cons, List.flatMap_cons,
    List.flatMap_nil, List.append_nil, fieldText, fieldText, fieldText,
    id_text, name_text, text, eventReportText, reportStart, start, middle,
    last, finish]
  simp only [partBrackets, List.append_assoc, List.cons_append]

/-! ## Reports that are published -/

theorem printTested_eq {bufLen : Nat} (small : bufLen < 2 ^ 31)
    (positive : bufLen ≠ 0) (formatted : List UInt8) :
    printTested bufLen formatted =
      if bufLen ≤ formatted.length then none else some formatted :=
  dmMqttGenTopicName_eq small positive formatted

/-- The topic of a report. -/
def reportTopic (handle : DmMqtt) (type : DmType) : List UInt8 :=
  upstreamTopic handle ((upstreamSuffix type).getD "")

/-- A callback was registered, and the arrays can be allocated. -/
structure ReportEnv.Ready (env : ReportEnv) (type : DmType) : Prop where
  registered : env.registered type = true
  msgReport : env.msgReportAllocated = true
  topic : env.topicAllocated = true

section

variable {handle : DmMqtt} {env : ReportEnv} {type : DmType}
  {text : Option (List UInt8)}

/-- What is published is the text that was generated. -/
theorem reportPublish_published {report : Report}
    (reported : reportPublish handle env type text = some report) :
    ∀ sent ∈ report.published, ∃ msg, text = some msg ∧
      sent = ⟨.qos1, reportTopic handle type, msg⟩ := by
  intro sent mem
  have nothing : some Report.failed ≠ some report := by
    intro same
    rw [← Option.some.inj same] at mem
    cases mem
  unfold reportPublish at reported
  split at reported
  · exact absurd reported nothing
  · split at reported
    · exact absurd reported nothing
    · split at reported
      · cases reported
      · split at reported
        · cases reported
        · rename_i suffix found
          rw [dmMqttGenTopicName_eq (by decide) (by decide)] at reported
          by_cases long :
              dmTopicBufLen ≤ (upstreamTopic handle suffix).length
          · rw [if_pos long] at reported
            exact absurd reported nothing
          · rw [if_neg long] at reported
            cases text with
            | none => exact absurd reported nothing
            | some msg =>
                rw [← Option.some.inj reported] at mem
                refine ⟨msg, rfl, ?_⟩
                rw [List.mem_singleton.mp mem, reportTopic, found]
                rfl

/-- Where everything can be allocated and the topic is short, the text is
published. -/
theorem reportPublish_ready (ready : env.Ready type) {suffix : String}
    (found : upstreamSuffix type = some suffix)
    (short : (reportTopic handle type).length < dmTopicBufLen)
    (msg : List UInt8) :
    reportPublish handle env type (some msg) =
      some (dmMqttPublish env (reportTopic handle type) 1 msg) := by
  unfold reportTopic at short ⊢
  rw [found, Option.getD_some] at short ⊢
  unfold reportPublish
  rw [ready.msgReport, ready.topic, ready.registered, found]
  dsimp only [Bool.not_true]
  rw [dmMqttGenTopicName_eq (by decide) (by decide),
    if_neg (Nat.not_le.mpr short)]
  rfl

end

/-- A text around another one that leaves no room is as long as the array. -/
theorem length_reportStart (requestId : Int32) :
    0 < (reportStart requestId).length := by
  unfold reportStart
  rw [List.length_append]
  have start : (ascii "\x7b\"RequestID\": \"").length = 15 := by
    decide +kernel
  omega

/-- The properties of a report are printed inside of it. -/
theorem propertyReportText_length {type : DmType} {requestId : Int32}
    {payload text : List UInt8} {property : DmProperty}
    (reportable : Reportable type property)
    (same : propertyReportText requestId payload type = some text) :
    payload.length < text.length := by
  have start := length_reportStart requestId
  cases type with
  | propertyPost | propertyDesiredGet | propertyDesiredDelete =>
      rw [← Option.some.inj same]
      simp only [List.length_append]
      omega
  | _ => exact reportable.elim

theorem eventReportText_length (requestId : Int32)
    (identifier payload : List UInt8) :
    payload.length < (eventReportText requestId identifier payload).length := by
  have start := length_reportStart requestId
  unfold eventReportText
  simp only [List.length_append]
  omega

/-- What `publishGenerated` publishes as: the text around the properties, printed
into an array of the same length. -/
structure PublishesAs (handle : DmMqtt) (env : ReportEnv) (type : DmType)
    (publish : List UInt8 → Option Report)
    (around : List UInt8 → Option (List UInt8)) : Prop where
  publish : ∀ payload, publish payload =
    reportPublish handle env type
      ((around payload).bind (printTested dmMsgReportBufLen))
  longer : ∀ payload text, around payload = some text →
    payload.length < text.length
  template : (upstreamSuffix type).isSome

section

variable {handle : DmMqtt} {env : ReportEnv} {topic type : DmType}
  {memory : ReportMemory} {publish : List UInt8 → Option Report}
  {around : List UInt8 → Option (List UInt8)} {properties : List DmProperty}
  {valueKey : Bool} {text : List UInt8}

/-- What is published is never cut off. -/
theorem publishGenerated_whole
    (publishes : PublishesAs handle env topic publish around)
    (nonempty : properties ≠ [])
    (reportable : ∀ property ∈ properties, Reportable type property)
    (inside : ∀ print ∈
      (reportGenerated memory (some properties) type valueKey).prints,
        print.Inside dmMsgReportBufLen)
    (whole : around (reportsText type valueKey properties) = some text)
    {report : Report}
    (reported : publishGenerated memory (some properties) type valueKey
      publish = some report) :
    ∀ sent ∈ report.published,
      sent = ⟨.qos1, reportTopic handle topic, text⟩ := by
  intro sent published
  have nothing : some Report.failed ≠ some report := by
    intro same
    rw [← Option.some.inj same] at published
    cases published
  unfold publishGenerated at reported
  split at reported
  · exact absurd reported nothing
  · dsimp only at reported
    split at reported
    · exact absurd reported nothing
    · rename_i accepted
      rw [publishes.publish] at reported
      obtain ⟨msg, generated, rfl⟩ :=
        reportPublish_published reported sent published
      obtain ⟨formatted, printed, tested⟩ :=
        Option.bind_eq_some_iff.mp generated
      rw [printTested_eq (by decide) (by decide)] at tested
      have success := (dmGenPropertiesPayload_plain (some properties) type
        valueKey memory.property memory.inner
        memory.properties).resolve_right accepted
      by_cases long : dmMsgReportBufLen ≤ formatted.length
      · rw [if_pos long] at tested
        cases tested
      · rw [if_neg long] at tested
        have longer := publishes.longer _ _ printed
        rcases dmGenPropertiesPayload_whole_or_full nonempty reportable rfl
          inside success with same | full
        · unfold reportGenerated at printed
          rw [same, whole] at printed
          rw [Option.some.inj printed, Option.some.inj tested]
        · unfold reportGenerated at longer
          omega

/-- It is published where everything can be allocated and has room. -/
theorem publishGenerated_ready
    (publishes : PublishesAs handle env topic publish around)
    (nonempty : properties ≠ [])
    (reportable : ∀ property ∈ properties, Reportable type property)
    (ready : env.Ready topic) (allocated : memory.Allocated)
    (topic_short : (reportTopic handle topic).length < dmTopicBufLen)
    (whole : around (reportsText type valueKey properties) = some text)
    (short : text.length < dmMsgReportBufLen) :
    publishGenerated memory (some properties) type valueKey publish =
      some (dmMqttPublish env (reportTopic handle topic) 1 text) := by
  obtain ⟨array, element, inner⟩ := allocated
  obtain ⟨buffer, found⟩ := Option.isSome_iff_exists.mp array
  obtain ⟨payload, found_element⟩ := Option.isSome_iff_exists.mp element
  have longer := publishes.longer _ _ whole
  obtain ⟨success, same, -⟩ := dmGenPropertiesPayload_of_short nonempty
    reportable payload inner buffer (Nat.lt_trans longer short)
  obtain ⟨suffix, is_suffix⟩ :=
    Option.isSome_iff_exists.mp publishes.template
  unfold publishGenerated reportGenerated
  rw [found, found_element, Option.isNone_some, if_neg Bool.false_ne_true]
  dsimp only
  rw [success, if_neg (by decide), same, publishes.publish, whole,
    Option.bind_some, printTested_eq (by decide) (by decide),
    if_neg (Nat.not_le.mpr short)]
  exact reportPublish_ready ready is_suffix topic_short _

end

/-- A report of properties is published as one whole document or not at all,
whatever was cut off while it was generated; and it is published where
everything can be allocated and the document and its topic fit. -/
theorem propertyReportPublishEx_whole (handle : DmMqtt) (env : ReportEnv)
    (memory : ReportMemory) {type : DmType} (requestId : Int32)
    {properties : List DmProperty} (nonempty : properties ≠ [])
    (reportable : ∀ property ∈ properties, Reportable type property)
    (inside : ∀ print ∈
      (reportGenerated memory (some properties) type true).prints,
        print.Inside dmMsgReportBufLen) :
    ∃ document, ReportsProperties type requestId properties document ∧
      propertyReportText requestId (reportsText type true properties) type =
        some document.text ∧
      (∀ report,
        dmMqttPropertyReportPublishEx handle env memory type requestId
            (some properties) = some report →
          ∀ sent ∈ report.published,
            sent = ⟨.qos1, reportTopic handle type, document.text⟩) ∧
      (env.Ready type → memory.Allocated →
        (reportTopic handle type).length < dmTopicBufLen →
          document.text.length < dmMsgReportBufLen →
            dmMqttPropertyReportPublishEx handle env memory type requestId
                (some properties) =
              some (dmMqttPublish env (reportTopic handle type) 1
                document.text)) := by
  obtain ⟨document, reports, text⟩ :=
    exists_propertyReport requestId nonempty reportable
  obtain ⟨property, mem⟩ := List.exists_mem_of_ne_nil properties nonempty
  have possible := reportable property mem
  have publishes : PublishesAs handle env type
      (dmMqttPropertyReportPublish handle env type requestId)
      (propertyReportText requestId · type) := by
    refine ⟨fun payload => rfl, fun payload text =>
      propertyReportText_length possible, ?_⟩
    cases type with
    | command => exact possible.elim
    | _ => rfl
  exact ⟨document, reports, text,
    fun report reported => publishGenerated_whole publishes nonempty reportable
      inside text reported,
    fun ready allocated topic_short short => publishGenerated_ready publishes
      nonempty reportable ready allocated topic_short text short⟩

/-- So is a report of an event. -/
theorem eventPublishEx_whole (handle : DmMqtt) (env : ReportEnv)
    (memory : ReportMemory) (requestId : Int32) {identifier : CString}
    (plain : ∀ byte ∈ identifier.bytes, PlainByte byte)
    {properties : List DmProperty} (nonempty : properties ≠ [])
    (shapes : ∀ property ∈ properties, property.value.Shape)
    (inside : ∀ print ∈
      (reportGenerated memory (some properties) .propertyPost false).prints,
        print.Inside dmMsgReportBufLen) :
    ∃ document,
      ReportsEvent requestId identifier.bytes properties document ∧
      eventReportText requestId identifier.bytes
        (reportsText .propertyPost false properties) = document.text ∧
      (∀ report,
        dmMqttEventPublishEx handle env memory requestId
            ⟨some identifier, some properties⟩ = some report →
          ∀ sent ∈ report.published,
            sent = ⟨.qos1, reportTopic handle .eventPost, document.text⟩) ∧
      (env.Ready .eventPost → memory.Allocated →
        (reportTopic handle .eventPost).length < dmTopicBufLen →
          document.text.length < dmEventPostBufLen →
            dmMqttEventPublishEx handle env memory requestId
                ⟨some identifier, some properties⟩ =
              some (dmMqttPublish env (reportTopic handle .eventPost) 1
                document.text)) := by
  obtain ⟨document, reports, text⟩ :=
    exists_eventReport requestId plain shapes
  have reportable : ∀ property ∈ properties,
      Reportable .propertyPost property := shapes
  have length_same : dmEventPostBufLen = dmMsgReportBufLen := rfl
  have publishes : PublishesAs handle env .eventPost
      (dmMqttEventPublish handle env requestId
        (percentS (some identifier)))
      (fun payload =>
        some (eventReportText requestId identifier.bytes payload)) := by
    refine ⟨fun payload => ?_, fun payload text same => ?_, rfl⟩
    · rw [Option.bind_some]
      unfold dmMqttEventPublish dmMqttGenEventPayload
      rw [length_same]
      rfl
    · rw [← Option.some.inj same]
      exact eventReportText_length requestId identifier.bytes payload
  exact ⟨document, reports, text,
    fun report reported => publishGenerated_whole publishes nonempty reportable
      inside (congrArg some text) reported,
    fun ready allocated topic_short short => publishGenerated_ready publishes
      nonempty reportable ready allocated topic_short (congrArg some text)
      short⟩

/-! ## Samples -/

/-- Everything can be allocated, and what is published gets the packet id one. -/
def readyEnv : ReportEnv := ⟨fun _ => true, true, true, fun _ => 1⟩

theorem readyEnv_ready (type : DmType) : readyEnv.Ready type := ⟨rfl, rfl, rfl⟩

def readyMemory : ReportMemory :=
  ⟨some emptyBuffer, some emptyBuffer,
    fun _ => ⟨some emptyBuffer, fun _ => some emptyBuffer⟩⟩

theorem readyMemory_allocated : readyMemory.Allocated :=
  ⟨rfl, rfl, fun _ => ⟨rfl, fun _ => rfl⟩⟩

def sampleHandle : DmMqtt :=
  ⟨⟨ascii "product", by decide +kernel⟩, ⟨ascii "device", by decide +kernel⟩⟩

theorem propertyReportPublishEx_whole_two :
    ∃ document, ReportsProperties .propertyPost 7 twoProperties document ∧
      dmMqttPropertyReportPublishEx sampleHandle readyEnv readyMemory
          .propertyPost 7 (some twoProperties) =
        some ⟨1, [⟨.qos1, reportTopic sampleHandle .propertyPost,
          document.text⟩]⟩ := by
  have nonempty : twoProperties ≠ [] := List.cons_ne_nil _ _
  have reportable : ∀ property ∈ twoProperties,
      Reportable .propertyPost property := twoProperties_shapes
  obtain ⟨document, reports, text, -, publishes⟩ :=
    propertyReportPublishEx_whole sampleHandle readyEnv readyMemory 7 nonempty
      reportable (by decide +kernel)
  have short : ∀ bytes ∈ propertyReportText 7
      (reportsText .propertyPost true twoProperties) .propertyPost,
      bytes.length < dmMsgReportBufLen := by decide +kernel
  exact ⟨document, reports, publishes (readyEnv_ready _) readyMemory_allocated
    (by decide +kernel) (short _ text)⟩

theorem eventPublishEx_whole_two :
    ∃ document,
      ReportsEvent 7 (ascii "alarm") twoProperties document ∧
      dmMqttEventPublishEx sampleHandle readyEnv readyMemory 7
          ⟨some ⟨ascii "alarm", by decide +kernel⟩, some twoProperties⟩ =
        some ⟨1, [⟨.qos1, reportTopic sampleHandle .eventPost,
          document.text⟩]⟩ := by
  have nonempty : twoProperties ≠ [] := List.cons_ne_nil _ _
  obtain ⟨document, reports, text, -, publishes⟩ :=
    @eventPublishEx_whole sampleHandle readyEnv readyMemory 7
      ⟨ascii "alarm", by decide +kernel⟩ (by decide +kernel) twoProperties
      nonempty twoProperties_shapes (by decide +kernel)
  have short : (eventReportText 7 (ascii "alarm")
      (reportsText .propertyPost false twoProperties)).length <
        dmEventPostBufLen := by decide +kernel
  have length : document.text.length < dmEventPostBufLen := by
    rw [← text]
    exact short
  exact ⟨document, reports, publishes (readyEnv_ready _) readyMemory_allocated
    (by decide +kernel) length⟩

end Dm
end UIoT
