import UIoT.Dm.Messages
import UIoT.Json.CutValues
import UIoT.Library.JsonMeaning
import UIoT.Shadow.DocumentNodes

/-!
# Commands and properties to set

`dm_mqtt_command_cb` and `dm_mqtt_property_set_cb` answer a message with what
the registered callback returns.  The topic and the text of the answer are
formatted into fixed arrays; for a command a length that just does not fit with
its terminator passes the test.
-/

namespace UIoT
namespace Dm

open Json (slice)
open JsonSyntax
open Shadow (halSnprintf printedLength)

/-! ## The callbacks -/

/-- The strings of `DM_MQTT_Struct_t` that go into a topic. -/
structure DmMqtt where
  productSn : CString
  deviceSn : CString

/-- What is published: the topic and, up to the terminator, the message. -/
structure Publication where
  topicName : List UInt8
  msg : List UInt8
  deriving DecidableEq

/-- What the callback for commands is called with. -/
structure CommandCall where
  requestId : List UInt8
  identifier : List UInt8
  input : List UInt8
  deriving DecidableEq

/-- What the callback for commands returns, and the string it leaves in
`output`. -/
structure CommandAnswer where
  cbRet : Int32
  output : CString

/-- What a command gets from its surroundings: the registered callback, if there
is one, what can be allocated, and which of its members can be copied. -/
structure CommandEnv where
  callback : Option (CommandCall → CommandAnswer)
  msgAllocated : Bool
  requestIdCopied : Bool
  identifierCopied : Bool
  inputCopied : Bool
  outputAllocated : Bool
  cmdReplyAllocated : Bool
  topicAllocated : Bool

/-- What a callback of `dm_mqtt.c` does: its call of the registered callback and
what it publishes. -/
structure Outcome (Call : Type) where
  calls : List Call
  published : List Publication

/-- `COMMAND_REPLY_TOPIC_TEMPLATE` with its strings. -/
def commandReplyTopic (handle : DmMqtt) (requestId : List UInt8) :
    List UInt8 :=
  ascii "/$system/" ++ handle.productSn.bytes ++ ascii "/" ++
    handle.deviceSn.bytes ++ ascii "/tmodel/command_reply/" ++ requestId

/-- The answer to a command, as it is formatted. -/
def commandReplyText (requestId : List UInt8) (answer : CommandAnswer)
    (identifier : List UInt8) : List UInt8 :=
  ascii "\x7b\"RequestID\": \"" ++ requestId ++ ascii "\", \"RetCode\": " ++
    decimal answer.cbRet.toInt ++ ascii ", \"Identifier\": \"" ++ identifier ++
      ascii "\", \"Output\": \x7b" ++ answer.output.bytes ++ ascii "\x7d\x7d"

/-- The members `dm_mqtt_command_cb` looks up, one after the other. -/
def commandCall (env : CommandEnv) (payload : List UInt8) :
    Option CommandCall :=
  (messageMember env.requestIdCopied "RequestID" payload).bind fun requestId =>
    (messageMember env.identifierCopied "Identifier" payload).bind
      fun identifier =>
        (messageMember env.inputCopied "Input" payload).map fun input =>
          ⟨requestId, identifier, input⟩

/-- `dm_mqtt_command_cb` -/
def dmMqttCommandCb (handle : DmMqtt) (env : CommandEnv)
    (payload : List UInt8) : Outcome CommandCall :=
  match env.callback with
  | none => ⟨[], []⟩
  | some cb =>
      if !env.msgAllocated then ⟨[], []⟩
      else
        match commandCall env payload with
        | none => ⟨[], []⟩
        | some call =>
            if !env.outputAllocated then ⟨[], []⟩
            else
              let answer := cb call
              if !env.cmdReplyAllocated then ⟨[call], []⟩
              else if !env.topicAllocated then ⟨[call], []⟩
              else
                let (topic, ret) := halSnprintf [] 0 dmTopicBufLen
                  (commandReplyTopic handle call.requestId)
                if ret < 0 ∨ ret > dmTopicBufLen then ⟨[call], []⟩
                else
                  let (cmdReply, ret) := halSnprintf [] 0 dmCmdReplyBufLen
                    (commandReplyText call.requestId answer call.identifier)
                  if ret < 0 ∨ ret > dmCmdReplyBufLen then ⟨[call], []⟩
                  else ⟨[call], [⟨topic, cmdReply⟩]⟩

/-- What the callback for properties to set is called with. -/
structure PropertySetCall where
  requestId : List UInt8
  property : List UInt8
  deriving DecidableEq

/-- What a property to set gets from its surroundings: the registered callback,
if there is one, what can be allocated, and which of its members can be
copied. -/
structure PropertySetEnv where
  callback : Option (PropertySetCall → Int32)
  msgAllocated : Bool
  requestIdCopied : Bool
  propertyCopied : Bool
  msgReplyAllocated : Bool
  topicAllocated : Bool

/-- `PROPERTY_SET_REPLY_TOPIC_TEMPLATE` with its strings. -/
def propertySetReplyTopic (handle : DmMqtt) : List UInt8 :=
  ascii "/$system/" ++ handle.productSn.bytes ++ ascii "/" ++
    handle.deviceSn.bytes ++ ascii "/tmodel/property/set_reply"

/-- The answer to properties to set, as it is formatted. -/
def propertySetReplyText (requestId : List UInt8) (cbRet : Int32) :
    List UInt8 :=
  ascii "\x7b\"RequestID\": \"" ++ requestId ++ ascii "\", \"RetCode\": " ++
    decimal cbRet.toInt ++ ascii "\x7d"

/-- `_dm_mqtt_gen_topic_name`, which compares the result as a `size_t`. -/
def dmMqttGenTopicName (bufLen : Nat) (formatted : List UInt8) :
    Option (List UInt8) :=
  let printed := halSnprintf [] 0 bufLen formatted
  let ret := printed.2
  if ret < 0 ∨ ret ≥ bufLen then none else some printed.1

/-- The members `dm_mqtt_property_set_cb` looks up, one after the other. -/
def propertySetCall (env : PropertySetEnv) (payload : List UInt8) :
    Option PropertySetCall :=
  (messageMember env.requestIdCopied "RequestID" payload).bind fun requestId =>
    (messageMember env.propertyCopied "Property" payload).map fun property =>
      ⟨requestId, property⟩

/-- `dm_mqtt_property_set_cb` -/
def dmMqttPropertySetCb (handle : DmMqtt) (env : PropertySetEnv)
    (payload : List UInt8) : Outcome PropertySetCall :=
  match env.callback with
  | none => ⟨[], []⟩
  | some cb =>
      if !env.msgAllocated then ⟨[], []⟩
      else
        match propertySetCall env payload with
        | none => ⟨[], []⟩
        | some call =>
            let cbRet := cb call
            if !env.msgReplyAllocated then ⟨[call], []⟩
            else if !env.topicAllocated then ⟨[call], []⟩
            else
              match dmMqttGenTopicName dmTopicBufLen
                  (propertySetReplyTopic handle) with
              | none => ⟨[call], []⟩
              | some topic =>
                  let (msgReply, ret) := halSnprintf [] 0 dmMsgReplyBufLen
                    (propertySetReplyText call.requestId cbRet)
                  if ret < 0 ∨ ret ≥ dmMsgReplyBufLen then ⟨[call], []⟩
                  else ⟨[call], [⟨topic, msgReply⟩]⟩

/-! ## What is cut out of a message -/

/-- What is cut out of a value never ends in a quote. -/
theorem slice_ne_quoted {value : Value} (passed : Json.Passed value)
    (front : List UInt8) : slice value ≠ front ++ [34] := by
  intro quoted
  have whole : Json.leftOver value = [] → value.content = front ++ [34] := by
    intro none
    rw [← quoted, slice, none, List.length_nil, Nat.sub_zero, List.take_length]
  have inside : 34 ∈ value.content := by
    have mem : 34 ∈ slice value := by simp [quoted]
    exact List.mem_of_mem_take mem
  cases value with
  | string items => exact passed inside
  | number number => exact Json.Number.unquoted number inside
  | literal literal => cases literal <;> revert inside <;> decide
  | array gap elements =>
      have written := whole rfl
      rw [Value.content, Value.text, ← List.cons_append] at written
      exact absurd (List.append_inj_right' written rfl) (by decide)
      intro items other
      cases other
  | object gap members =>
      have written := whole rfl
      rw [Value.content, Value.text, ← List.cons_append] at written
      exact absurd (List.append_inj_right' written rfl) (by decide)
      intro items other
      cases other

theorem metText_ne_quoted {document : ObjectDocument} {key : String}
    (scanned : ScannedTo key document) {text : List UInt8}
    (met : metText key document = some text) (front : List UInt8) :
    text ≠ front ++ [34] := by
  obtain ⟨member, found, rfl⟩ := Option.map_eq_some_iff.mp met
  exact slice_ne_quoted (scanned.members.clean_of_met found).2 front

/-! ## Printing -/

theorem printedLength_above_iff (formatted : List UInt8) {bound : Nat}
    (small : bound < 2 ^ 31) :
    (printedLength formatted < 0 ∨ printedLength formatted > bound) ↔
      bound < formatted.length := by
  unfold printedLength
  split <;> omega

theorem printedLength_reaches_iff (formatted : List UInt8) {bound : Nat}
    (small : bound < 2 ^ 31) :
    (printedLength formatted < 0 ∨ printedLength formatted ≥ bound) ↔
      bound ≤ formatted.length := by
  unfold printedLength
  split <;> omega

/-! ## Answers that are the same -/

/-- Where two texts in front of a quote and of what follows it are the same, the
second without a quote and the first neither ending in one nor much longer, they
are the same without it. -/
theorem eq_of_quoted {first second behind rest : List UInt8}
    (unquoted : 34 ∉ second) (not_quoted : ∀ front, first ≠ front ++ [34])
    (close : first.length ≤ second.length + 1)
    (same : first ++ 34 :: behind = second ++ 34 :: rest) : first = second := by
  rcases List.append_eq_append_iff.mp same with
    ⟨more, second_eq, behind_eq⟩ | ⟨more, first_eq, rest_eq⟩
  · cases more with
    | nil => rw [second_eq, List.append_nil]
    | cons byte more =>
        obtain ⟨rfl, -⟩ := List.cons.inj behind_eq
        exact absurd (by simp [second_eq]) unquoted
  · cases more with
    | nil => rw [first_eq, List.append_nil]
    | cons byte more =>
        obtain ⟨rfl, -⟩ := List.cons.inj rest_eq
        rw [first_eq, List.length_append, List.length_cons] at close
        obtain rfl := List.length_eq_zero_iff.mp (by omega : more.length = 0)
        exact absurd first_eq (not_quoted second)

/-- What stands in an answer between its two strings. -/
def answerMiddle (answer : CommandAnswer) : List UInt8 :=
  ascii ", \"RetCode\": " ++ decimal answer.cbRet.toInt ++
    ascii ", \"Identifier\": \""

/-- What stands in an answer behind its second string. -/
def answerTail (answer : CommandAnswer) : List UInt8 :=
  ascii ", \"Output\": \x7b" ++ answer.output.bytes ++ ascii "\x7d\x7d"

theorem commandReplyText_eq (requestId : List UInt8) (answer : CommandAnswer)
    (identifier : List UInt8) :
    commandReplyText requestId answer identifier =
      ascii "\x7b\"RequestID\": \"" ++ (requestId ++
        34 :: (answerMiddle answer ++ (identifier ++
          34 :: answerTail answer))) := by
  have first : ascii "\", \"RetCode\": " = 34 :: ascii ", \"RetCode\": " :=
    rfl
  have second : ascii "\", \"Output\": \x7b" =
      34 :: ascii ", \"Output\": \x7b" := rfl
  unfold commandReplyText answerMiddle answerTail
  rw [first, second]
  simp only [List.append_assoc, List.cons_append]

/-- The topic of an answer is not cut, or the cut leaves the string the request
id stands for. -/
def TopicWhole (handle : DmMqtt) (requestId : List StringItem) : Prop :=
  let topicLen := (commandReplyTopic handle (rawText requestId)).length
  (topicLen < dmTopicBufLen ∧
      rawText requestId = stringValue requestId) ∨
    (topicLen = dmTopicBufLen ∧
      ∃ last, rawText requestId = stringValue requestId ++ [last])

theorem commandReplyTopic_eq (handle : DmMqtt) (requestId : List UInt8) :
    commandReplyTopic handle requestId =
      commandReplyTopic handle [] ++ requestId := by
  simp [commandReplyTopic]

/-- The string a request id stands for is what is left of it in a topic exactly
if the topic is whole. -/
theorem topic_take_iff (handle : DmMqtt) (requestId : List StringItem)
    (fits : (commandReplyTopic handle (rawText requestId)).length ≤
      dmTopicBufLen) :
    (commandReplyTopic handle (rawText requestId)).take (dmTopicBufLen - 1) =
        commandReplyTopic handle (stringValue requestId) ↔
      TopicWhole handle requestId := by
  have raw_eq := commandReplyTopic_eq handle (rawText requestId)
  have value_eq := commandReplyTopic_eq handle (stringValue requestId)
  have raw_length := congrArg List.length raw_eq
  have value_length := congrArg List.length value_eq
  rw [List.length_append] at raw_length value_length
  unfold TopicWhole
  by_cases short : (commandReplyTopic handle (rawText requestId)).length <
      dmTopicBufLen
  · rw [List.take_of_length_le (by omega), raw_eq, value_eq,
      List.append_cancel_left_eq, ← raw_eq]
    constructor
    · exact fun same => .inl ⟨short, same⟩
    · rintro (⟨-, same⟩ | ⟨long, -⟩)
      · exact same
      · exact absurd long (Nat.ne_of_lt short)
  · constructor
    · intro same
      have whole := List.take_append_drop (dmTopicBufLen - 1)
        (commandReplyTopic handle (rawText requestId))
      have cut_length := congrArg List.length whole
      rw [List.length_append, List.length_take] at cut_length
      rw [same, raw_eq, value_eq, List.append_assoc,
        List.append_cancel_left_eq, ← raw_eq] at whole
      obtain ⟨last, cut⟩ := List.length_eq_one_iff.mp
        (by unfold dmTopicBufLen at *; omega :
          ((commandReplyTopic handle (rawText requestId)).drop
            (dmTopicBufLen - 1)).length = 1)
      rw [cut] at whole
      exact .inr ⟨by omega, last, whole.symm⟩
    · rintro (⟨other, -⟩ | ⟨long, last, same⟩)
      · exact absurd other short
      · rw [raw_eq, same, ← List.append_assoc, ← value_eq]
        apply List.take_left'
        rw [long, same, List.length_append, List.length_singleton] at raw_length
        unfold dmTopicBufLen at *
        omega

/-- An answer made of the texts met is that to the command exactly if they are
its texts and nothing is cut off. -/
theorem answer_take_iff (handle : DmMqtt) (answer : CommandAnswer)
    {requestId identifier : List StringItem}
    (idUnquoted : 34 ∉ rawText requestId)
    (nameUnquoted : 34 ∉ rawText identifier) {metId metName : List UInt8}
    (idEnds : ∀ front, metId ≠ front ++ [34])
    (nameEnds : ∀ front, metName ≠ front ++ [34])
    (topicFits : (commandReplyTopic handle metId).length ≤ dmTopicBufLen)
    (textFits : (commandReplyText metId answer metName).length ≤
      dmCmdReplyBufLen) :
    ((commandReplyTopic handle metId).take (dmTopicBufLen - 1) =
          commandReplyTopic handle (stringValue requestId) ∧
        (commandReplyText metId answer metName).take (dmCmdReplyBufLen - 1) =
          commandReplyText (rawText requestId) answer (rawText identifier)) ↔
      (commandReplyText metId answer metName).length < dmCmdReplyBufLen ∧
        metId = rawText requestId ∧ metName = rawText identifier ∧
          TopicWhole handle requestId := by
  constructor
  · rintro ⟨topicSame, textSame⟩
    have idClose : metId.length ≤ (rawText requestId).length + 1 := by
      have shorter := (stringValue_length requestId).1
      have lengths := congrArg List.length topicSame
      rw [commandReplyTopic_eq] at topicFits
      rw [List.length_take, commandReplyTopic_eq handle metId,
        commandReplyTopic_eq handle (stringValue requestId)] at lengths
      simp only [List.length_append] at lengths topicFits
      unfold dmTopicBufLen at *
      omega
    have whole := List.take_append_drop (dmCmdReplyBufLen - 1)
      (commandReplyText metId answer metName)
    have cut_length : ((commandReplyText metId answer metName).drop
        (dmCmdReplyBufLen - 1)).length ≤ 1 := by
      rw [List.length_drop]
      unfold dmCmdReplyBufLen at *
      omega
    generalize (commandReplyText metId answer metName).drop
      (dmCmdReplyBufLen - 1) = cut at whole cut_length
    rw [textSame] at whole
    have text_length := congrArg List.length whole
    rw [commandReplyText_eq, commandReplyText_eq] at whole
    simp only [List.append_assoc, List.cons_append,
      List.append_cancel_left_eq] at whole
    obtain rfl := eq_of_quoted idUnquoted idEnds idClose whole.symm
    have names := List.append_cancel_left
      (List.cons.inj (List.append_cancel_left whole)).2
    have name_length := congrArg List.length names
    simp only [List.length_append, List.length_cons] at name_length
    obtain rfl := eq_of_quoted nameUnquoted nameEnds (by omega) names.symm
    obtain rfl := List.length_eq_zero_iff.mp (by omega : cut.length = 0)
    refine ⟨?_, rfl, rfl,
      (topic_take_iff handle requestId topicFits).mp topicSame⟩
    have taken := congrArg List.length textSame
    rw [List.length_take] at taken
    unfold dmCmdReplyBufLen at *
    omega
  · rintro ⟨short, rfl, rfl, topicWhole⟩
    refine ⟨(topic_take_iff handle requestId topicFits).mpr topicWhole, ?_⟩
    exact List.take_of_length_le (Nat.le_sub_one_of_lt short)

/-! ## Commands -/

/-- The document is a command whose request id and identifier are strings
without quotes. -/
structure IsCommand (document : ObjectDocument)
    (requestId identifier : List StringItem) : Prop where
  idString : named "RequestID" document = some (.string requestId)
  nameString : named "Identifier" document = some (.string identifier)
  inputPresent : (named "Input" document).isSome
  idUnquoted : 34 ∉ rawText requestId
  nameUnquoted : 34 ∉ rawText identifier

/-- Nothing is published for a command, or one whole answer: on the topic of its
request id, with its request id and identifier and what its callback
returned. -/
def CommandAnswered (handle : DmMqtt) (env : CommandEnv)
    (document : ObjectDocument) : Prop :=
  ∀ requestId identifier, IsCommand document requestId identifier →
    let outcome := dmMqttCommandCb handle env document.text
    outcome.published = [] ∨
      ∃ cb call, env.callback = some cb ∧ outcome.calls = [call] ∧
        outcome.published =
          [⟨commandReplyTopic handle (stringValue requestId),
            commandReplyText (rawText requestId) (cb call)
              (rawText identifier)⟩]

/-- A callback is registered, and everything it takes can be allocated and
copied. -/
structure CommandEnv.Serves (env : CommandEnv) : Prop where
  callback : env.callback.isSome
  message : env.msgAllocated = true
  requestId : env.requestIdCopied = true
  identifier : env.identifierCopied = true
  input : env.inputCopied = true
  output : env.outputAllocated = true
  reply : env.cmdReplyAllocated = true
  topic : env.topicAllocated = true

/-- The callback is called with the first members met, and everything can be
allocated. -/
structure CommandRuns (env : CommandEnv) (document : ObjectDocument)
    (cb : CommandCall → CommandAnswer) (call : CommandCall) : Prop where
  callback : env.callback = some cb
  serves : env.Serves
  requestId : metText "RequestID" document = some call.requestId
  identifier : metText "Identifier" document = some call.identifier
  input : metText "Input" document = some call.input

/-- The scan comes through the members up to those looked up, one after the
other. -/
def CommandLookups (document : ObjectDocument) : Prop :=
  ScannedTo "RequestID" document ∧
    ((metText "RequestID" document).isSome →
      ScannedTo "Identifier" document ∧
        ((metText "Identifier" document).isSome → ScannedTo "Input" document))

/-- The scan comes through a command that is served. -/
def CommandScanned (env : CommandEnv) (document : ObjectDocument) : Prop :=
  (∃ requestId identifier, IsCommand document requestId identifier) →
    env.Serves → CommandLookups document

/-- Where an answer is published at all it is made of the command's own request
id and identifier, and its topic and its text have room. -/
def CommandRight (handle : DmMqtt) (env : CommandEnv)
    (document : ObjectDocument) : Prop :=
  ∀ requestId identifier, IsCommand document requestId identifier →
    ∀ cb call, CommandRuns env document cb call →
      let topicLen := (commandReplyTopic handle call.requestId).length
      let textLen :=
        (commandReplyText call.requestId (cb call) call.identifier).length
      dmTopicBufLen < topicLen ∨ dmCmdReplyBufLen < textLen ∨
        (textLen < dmCmdReplyBufLen ∧ call.requestId = rawText requestId ∧
          call.identifier = rawText identifier ∧ TopicWhole handle requestId)

/-- What `dm_mqtt_command_cb` publishes once its callback has answered. -/
def commandPublished (handle : DmMqtt) (call : CommandCall)
    (answer : CommandAnswer) : List Publication :=
  let topic := commandReplyTopic handle call.requestId
  let text := commandReplyText call.requestId answer call.identifier
  if dmTopicBufLen < topic.length ∨ dmCmdReplyBufLen < text.length then []
  else [⟨topic.take (dmTopicBufLen - 1), text.take (dmCmdReplyBufLen - 1)⟩]

/-- The members looked up are the first ones met. -/
theorem commandCall_iff {env : CommandEnv} (serves : env.Serves)
    {document : ObjectDocument} (lookups : CommandLookups document)
    (call : CommandCall) :
    commandCall env document.text = some call ↔
      metText "RequestID" document = some call.requestId ∧
        metText "Identifier" document = some call.identifier ∧
          metText "Input" document = some call.input := by
  obtain ⟨idScanned, later⟩ := lookups
  unfold commandCall
  rw [serves.requestId, serves.identifier, serves.input,
    messageMember_eq idScanned (by decide)]
  cases id : metText "RequestID" document with
  | none => simp
  | some requestId =>
      obtain ⟨nameScanned, last⟩ := later (by simp [id])
      rw [Option.bind_some, messageMember_eq nameScanned (by decide)]
      cases name : metText "Identifier" document with
      | none => simp
      | some identifier =>
          have inputScanned := last (by simp [name])
          rw [Option.bind_some, messageMember_eq inputScanned (by decide)]
          cases input : metText "Input" document with
          | none => simp
          | some input' =>
              cases call
              simp

/-- A command whose callback is called is answered. -/
theorem dmMqttCommandCb_runs {handle : DmMqtt} {env : CommandEnv}
    {document : ObjectDocument} (lookups : CommandLookups document)
    {cb : CommandCall → CommandAnswer} {call : CommandCall}
    (runs : CommandRuns env document cb call) :
    dmMqttCommandCb handle env document.text =
      ⟨[call], commandPublished handle call (cb call)⟩ := by
  obtain ⟨callback, serves, id, name, input⟩ := runs
  have called := (commandCall_iff serves lookups call).mpr ⟨id, name, input⟩
  have topicPrinted := Shadow.halSnprintf_eq [] 0
    (commandReplyTopic handle call.requestId)
    (by decide : dmTopicBufLen < 2 ^ 31) (by decide)
  have textPrinted := Shadow.halSnprintf_eq [] 0
    (commandReplyText call.requestId (cb call) call.identifier)
    (by decide : dmCmdReplyBufLen < 2 ^ 31) (by decide)
  unfold dmMqttCommandCb commandPublished
  rw [called, callback, serves.message, serves.output, serves.reply,
    serves.topic]
  dsimp only
  rw [topicPrinted, textPrinted]
  simp only [Bool.not_true, Bool.false_eq_true, if_false, List.take_nil,
    List.nil_append]
  by_cases topicLong : dmTopicBufLen <
      (commandReplyTopic handle call.requestId).length
  · rw [if_pos ((printedLength_above_iff _ (by decide)).mpr topicLong),
      if_pos (.inl topicLong)]
  rw [if_neg fun above =>
    topicLong ((printedLength_above_iff _ (by decide)).mp above)]
  by_cases textLong : dmCmdReplyBufLen <
      (commandReplyText call.requestId (cb call) call.identifier).length
  · rw [if_pos ((printedLength_above_iff _ (by decide)).mpr textLong),
      if_pos (.inr textLong)]
  · rw [if_neg fun above =>
      textLong ((printedLength_above_iff _ (by decide)).mp above),
      if_neg (by tauto)]

/-- A command that is not served is not answered. -/
theorem dmMqttCommandCb_unserved {env : CommandEnv} (unserved : ¬env.Serves)
    (handle : DmMqtt) (payload : List UInt8) :
    (dmMqttCommandCb handle env payload).published = [] := by
  unfold dmMqttCommandCb
  cases callback : env.callback with
  | none => rfl
  | some cb =>
    dsimp only
    cases message : env.msgAllocated
    case false => rfl
    rw [if_neg (by decide)]
    cases called : commandCall env payload with
    | none => rfl
    | some call =>
      obtain ⟨requestId, id, rest⟩ := Option.bind_eq_some_iff.mp called
      obtain ⟨identifier, name, last⟩ := Option.bind_eq_some_iff.mp rest
      obtain ⟨input, argument, -⟩ := Option.map_eq_some_iff.mp last
      cases output : env.outputAllocated
      case false => rfl
      cases reply : env.cmdReplyAllocated
      case false => rfl
      cases topic : env.topicAllocated
      case false => rfl
      exact absurd ⟨by simp [callback], message, copied_of_member id,
        copied_of_member name, copied_of_member argument, output, reply, topic⟩
        unserved

/-- A command whose callback is not called is not answered. -/
theorem dmMqttCommandCb_silent {handle : DmMqtt} {env : CommandEnv}
    {document : ObjectDocument} (serves : env.Serves)
    (lookups : CommandLookups document)
    (idle : ∀ cb call, ¬CommandRuns env document cb call) :
    (dmMqttCommandCb handle env document.text).published = [] := by
  obtain ⟨cb, callback⟩ := Option.isSome_iff_exists.mp serves.callback
  have uncalled : commandCall env document.text = none := by
    rw [Option.eq_none_iff_forall_ne_some]
    intro call called
    obtain ⟨id, name, input⟩ := (commandCall_iff serves lookups call).mp called
    exact idle cb call ⟨callback, serves, id, name, input⟩
  unfold dmMqttCommandCb
  rw [callback, serves.message, uncalled]
  rfl

theorem CommandRuns.unique {env : CommandEnv} {document : ObjectDocument}
    {cb other : CommandCall → CommandAnswer} {call otherCall : CommandCall}
    (runs : CommandRuns env document cb call)
    (otherRuns : CommandRuns env document other otherCall) :
    other = cb ∧ otherCall = call := by
  have sameId := otherRuns.requestId.symm.trans runs.requestId
  have sameName := otherRuns.identifier.symm.trans runs.identifier
  have sameInput := otherRuns.input.symm.trans runs.input
  constructor
  · exact Option.some.inj (otherRuns.callback.symm.trans runs.callback)
  · cases otherCall
    cases call
    exact CommandCall.mk.injEq .. |>.mpr ⟨Option.some.inj sameId,
      Option.some.inj sameName, Option.some.inj sameInput⟩

/-- Of a command the scan comes through. -/
theorem commandAnswered_iff {handle : DmMqtt} {env : CommandEnv}
    {document : ObjectDocument} (scanned : CommandScanned env document) :
    CommandAnswered handle env document ↔
      CommandRight handle env document := by
  unfold CommandAnswered CommandRight
  refine forall₃_congr fun requestId identifier isCommand => ?_
  dsimp only
  by_cases serves : env.Serves
  case neg =>
    exact iff_of_true (.inl (dmMqttCommandCb_unserved serves _ _))
      fun cb call runs => absurd runs.serves serves
  have lookups := scanned ⟨requestId, identifier, isCommand⟩ serves
  by_cases idle : ∀ cb call, ¬CommandRuns env document cb call
  · exact iff_of_true (.inl (dmMqttCommandCb_silent serves lookups idle))
      fun cb call runs => absurd runs (idle cb call)
  push Not at idle
  obtain ⟨cb, call, runs⟩ := idle
  have only : ∀ {right : (CommandCall → CommandAnswer) → CommandCall → Prop},
      (∀ cb call, CommandRuns env document cb call → right cb call) ↔
        right cb call := by
    intro right
    constructor
    · exact fun all => all cb call runs
    · intro holds other otherCall otherRuns
      obtain ⟨rfl, rfl⟩ := runs.unique otherRuns
      exact holds
  rw [only, dmMqttCommandCb_runs lookups runs]
  unfold commandPublished
  dsimp only
  by_cases long : dmTopicBufLen <
      (commandReplyTopic handle call.requestId).length ∨
    dmCmdReplyBufLen <
      (commandReplyText call.requestId (cb call) call.identifier).length
  · rw [if_pos long]
    exact iff_of_true (.inl rfl) (long.imp_right .inl)
  · rw [if_neg long]
    obtain ⟨topicFits, textFits⟩ := not_or.mp long
    have nameScanned := (lookups.2 (by simp [runs.requestId])).1
    have whole := answer_take_iff handle (cb call) isCommand.idUnquoted
      isCommand.nameUnquoted (metText_ne_quoted lookups.1 runs.requestId)
      (metText_ne_quoted nameScanned runs.identifier) (Nat.not_lt.mp topicFits)
      (Nat.not_lt.mp textFits)
    rw [or_iff_right topicFits, or_iff_right textFits, ← whole]
    constructor
    · rintro (none | ⟨other, otherCall, callback, called, published⟩)
      · exact absurd none (List.cons_ne_nil _ _)
      obtain rfl := List.singleton_inj.mp called
      obtain rfl := Option.some.inj (runs.callback.symm.trans callback)
      obtain ⟨topicSame, textSame⟩ :=
        Publication.mk.inj (List.singleton_inj.mp published)
      exact ⟨topicSame, textSame⟩
    · rintro ⟨topicSame, textSame⟩
      refine .inr ⟨cb, call, runs.callback, rfl, ?_⟩
      rw [topicSame, textSame]

/-! ## Properties to set -/

/-- The document sets properties, and its request id is a string without
quotes. -/
structure IsPropertySet (document : ObjectDocument)
    (requestId : List StringItem) : Prop where
  idString : named "RequestID" document = some (.string requestId)
  propertyPresent : (named "Property" document).isSome
  idUnquoted : 34 ∉ rawText requestId

/-- Nothing is published for properties to set, or one whole answer: on the
topic of the device, with their request id and what their callback returned. -/
def PropertySetAnswered (handle : DmMqtt) (env : PropertySetEnv)
    (document : ObjectDocument) : Prop :=
  ∀ requestId, IsPropertySet document requestId →
    let outcome := dmMqttPropertySetCb handle env document.text
    outcome.published = [] ∨
      ∃ cb call, env.callback = some cb ∧ outcome.calls = [call] ∧
        outcome.published =
          [⟨propertySetReplyTopic handle,
            propertySetReplyText (rawText requestId) (cb call)⟩]

/-- A callback is registered, and everything it takes can be allocated and
copied. -/
structure PropertySetEnv.Serves (env : PropertySetEnv) : Prop where
  callback : env.callback.isSome
  message : env.msgAllocated = true
  requestId : env.requestIdCopied = true
  property : env.propertyCopied = true
  reply : env.msgReplyAllocated = true
  topic : env.topicAllocated = true

/-- The callback is called with the first members met, and everything can be
allocated. -/
structure PropertySetRuns (env : PropertySetEnv) (document : ObjectDocument)
    (cb : PropertySetCall → Int32) (call : PropertySetCall) : Prop where
  callback : env.callback = some cb
  serves : env.Serves
  requestId : metText "RequestID" document = some call.requestId
  property : metText "Property" document = some call.property

/-- The scan comes through the members up to those looked up, one after the
other. -/
def PropertySetLookups (document : ObjectDocument) : Prop :=
  ScannedTo "RequestID" document ∧
    ((metText "RequestID" document).isSome → ScannedTo "Property" document)

/-- The scan comes through properties to set that are served. -/
def PropertySetScanned (env : PropertySetEnv) (document : ObjectDocument) :
    Prop :=
  (∃ requestId, IsPropertySet document requestId) →
    env.Serves → PropertySetLookups document

/-- Where an answer is published at all it is made of the message's own request
id. -/
def PropertySetRight (handle : DmMqtt) (env : PropertySetEnv)
    (document : ObjectDocument) : Prop :=
  ∀ requestId, IsPropertySet document requestId →
    ∀ cb call, PropertySetRuns env document cb call →
      dmTopicBufLen ≤ (propertySetReplyTopic handle).length ∨
        dmMsgReplyBufLen ≤
            (propertySetReplyText call.requestId (cb call)).length ∨
          call.requestId = rawText requestId

/-- What `dm_mqtt_property_set_cb` publishes once its callback has answered. -/
def propertySetPublished (handle : DmMqtt) (call : PropertySetCall)
    (cbRet : Int32) : List Publication :=
  let topic := propertySetReplyTopic handle
  let text := propertySetReplyText call.requestId cbRet
  if dmTopicBufLen ≤ topic.length ∨ dmMsgReplyBufLen ≤ text.length then []
  else [⟨topic, text⟩]

/-- A topic is generated exactly where it has room. -/
theorem dmMqttGenTopicName_eq {bufLen : Nat} (small : bufLen < 2 ^ 31)
    (positive : bufLen ≠ 0) (formatted : List UInt8) :
    dmMqttGenTopicName bufLen formatted =
      if bufLen ≤ formatted.length then none else some formatted := by
  have printed := Shadow.halSnprintf_eq [] 0 formatted small positive
  have reaches := printedLength_reaches_iff formatted small
  unfold dmMqttGenTopicName
  rw [printed]
  generalize printedLength formatted = ret at reaches
  dsimp only
  by_cases long : bufLen ≤ formatted.length
  · rw [if_pos (reaches.mpr long), if_pos long]
  · rw [if_neg (mt reaches.mp long), if_neg long, List.take_nil,
      List.nil_append, List.take_of_length_le (by omega)]

/-- The members looked up are the first ones met. -/
theorem propertySetCall_iff {env : PropertySetEnv} (serves : env.Serves)
    {document : ObjectDocument} (lookups : PropertySetLookups document)
    (call : PropertySetCall) :
    propertySetCall env document.text = some call ↔
      metText "RequestID" document = some call.requestId ∧
        metText "Property" document = some call.property := by
  obtain ⟨idScanned, later⟩ := lookups
  unfold propertySetCall
  rw [serves.requestId, serves.property, messageMember_eq idScanned (by decide)]
  cases id : metText "RequestID" document with
  | none => simp
  | some requestId =>
      have propertyScanned := later (by simp [id])
      rw [Option.bind_some, messageMember_eq propertyScanned (by decide)]
      cases property : metText "Property" document with
      | none => simp
      | some property' =>
          cases call
          simp

/-- Properties to set whose callback is called are answered. -/
theorem dmMqttPropertySetCb_runs {handle : DmMqtt} {env : PropertySetEnv}
    {document : ObjectDocument} (lookups : PropertySetLookups document)
    {cb : PropertySetCall → Int32} {call : PropertySetCall}
    (runs : PropertySetRuns env document cb call) :
    dmMqttPropertySetCb handle env document.text =
      ⟨[call], propertySetPublished handle call (cb call)⟩ := by
  obtain ⟨callback, serves, id, property⟩ := runs
  have called := (propertySetCall_iff serves lookups call).mpr ⟨id, property⟩
  have printed := Shadow.halSnprintf_eq [] 0
    (propertySetReplyText call.requestId (cb call))
    (by decide : dmMsgReplyBufLen < 2 ^ 31) (by decide)
  unfold dmMqttPropertySetCb propertySetPublished
  rw [called, callback, serves.message, serves.reply, serves.topic,
    dmMqttGenTopicName_eq (by decide) (by decide)]
  dsimp only
  rw [printed]
  simp only [Bool.not_true, Bool.false_eq_true, if_false, List.take_nil,
    List.nil_append]
  by_cases topicLong : dmTopicBufLen ≤ (propertySetReplyTopic handle).length
  · rw [if_pos topicLong, if_pos (.inl topicLong)]
  rw [if_neg topicLong]
  dsimp only
  by_cases textLong : dmMsgReplyBufLen ≤
      (propertySetReplyText call.requestId (cb call)).length
  · rw [if_pos ((printedLength_reaches_iff _ (by decide)).mpr textLong),
      if_pos (.inr textLong)]
  · rw [if_neg fun reaches =>
        textLong ((printedLength_reaches_iff _ (by decide)).mp reaches),
      if_neg (not_or.mpr ⟨topicLong, textLong⟩),
      List.take_of_length_le (by omega)]

/-- Properties to set that are not served are not answered. -/
theorem dmMqttPropertySetCb_unserved {env : PropertySetEnv}
    (unserved : ¬env.Serves) (handle : DmMqtt) (payload : List UInt8) :
    (dmMqttPropertySetCb handle env payload).published = [] := by
  unfold dmMqttPropertySetCb
  cases callback : env.callback with
  | none => rfl
  | some cb =>
    dsimp only
    cases message : env.msgAllocated
    case false => rfl
    rw [if_neg (by decide)]
    cases called : propertySetCall env payload with
    | none => rfl
    | some call =>
      obtain ⟨requestId, id, rest⟩ := Option.bind_eq_some_iff.mp called
      obtain ⟨property, argument, -⟩ := Option.map_eq_some_iff.mp rest
      cases reply : env.msgReplyAllocated
      case false => rfl
      cases topic : env.topicAllocated
      case false => rfl
      exact absurd ⟨by simp [callback], message, copied_of_member id,
        copied_of_member argument, reply, topic⟩ unserved

/-- Properties to set whose callback is not called are not answered. -/
theorem dmMqttPropertySetCb_silent {handle : DmMqtt} {env : PropertySetEnv}
    {document : ObjectDocument} (serves : env.Serves)
    (lookups : PropertySetLookups document)
    (idle : ∀ cb call, ¬PropertySetRuns env document cb call) :
    (dmMqttPropertySetCb handle env document.text).published = [] := by
  obtain ⟨cb, callback⟩ := Option.isSome_iff_exists.mp serves.callback
  have uncalled : propertySetCall env document.text = none := by
    rw [Option.eq_none_iff_forall_ne_some]
    intro call called
    obtain ⟨id, property⟩ := (propertySetCall_iff serves lookups call).mp called
    exact idle cb call ⟨callback, serves, id, property⟩
  unfold dmMqttPropertySetCb
  rw [callback, serves.message, uncalled]
  rfl

theorem PropertySetRuns.unique {env : PropertySetEnv}
    {document : ObjectDocument} {cb other : PropertySetCall → Int32}
    {call otherCall : PropertySetCall}
    (runs : PropertySetRuns env document cb call)
    (otherRuns : PropertySetRuns env document other otherCall) :
    other = cb ∧ otherCall = call := by
  have sameId := otherRuns.requestId.symm.trans runs.requestId
  have sameProperty := otherRuns.property.symm.trans runs.property
  constructor
  · exact Option.some.inj (otherRuns.callback.symm.trans runs.callback)
  · cases otherCall
    cases call
    exact PropertySetCall.mk.injEq .. |>.mpr
      ⟨Option.some.inj sameId, Option.some.inj sameProperty⟩

theorem propertySetReplyText_inj {first second : List UInt8} {cbRet : Int32} :
    propertySetReplyText first cbRet = propertySetReplyText second cbRet ↔
      first = second := by
  unfold propertySetReplyText
  rw [List.append_cancel_right_eq, List.append_cancel_right_eq,
    List.append_cancel_right_eq, List.append_cancel_left_eq]

/-- Of properties to set the scan comes through. -/
theorem propertySetAnswered_iff {handle : DmMqtt} {env : PropertySetEnv}
    {document : ObjectDocument} (scanned : PropertySetScanned env document) :
    PropertySetAnswered handle env document ↔
      PropertySetRight handle env document := by
  unfold PropertySetAnswered PropertySetRight
  refine forall₂_congr fun requestId isSet => ?_
  dsimp only
  by_cases serves : env.Serves
  case neg =>
    exact iff_of_true (.inl (dmMqttPropertySetCb_unserved serves _ _))
      fun cb call runs => absurd runs.serves serves
  have lookups := scanned ⟨requestId, isSet⟩ serves
  by_cases idle : ∀ cb call, ¬PropertySetRuns env document cb call
  · exact iff_of_true (.inl (dmMqttPropertySetCb_silent serves lookups idle))
      fun cb call runs => absurd runs (idle cb call)
  push Not at idle
  obtain ⟨cb, call, runs⟩ := idle
  have only : ∀ {right : (PropertySetCall → Int32) → PropertySetCall → Prop},
      (∀ cb call, PropertySetRuns env document cb call → right cb call) ↔
        right cb call := by
    intro right
    constructor
    · exact fun all => all cb call runs
    · intro holds other otherCall otherRuns
      obtain ⟨rfl, rfl⟩ := runs.unique otherRuns
      exact holds
  rw [only, dmMqttPropertySetCb_runs lookups runs]
  unfold propertySetPublished
  dsimp only
  by_cases long : dmTopicBufLen ≤ (propertySetReplyTopic handle).length ∨
    dmMsgReplyBufLen ≤ (propertySetReplyText call.requestId (cb call)).length
  · rw [if_pos long]
    exact iff_of_true (.inl rfl) (long.imp_right .inl)
  · rw [if_neg long]
    obtain ⟨topicFits, textFits⟩ := not_or.mp long
    rw [or_iff_right topicFits, or_iff_right textFits]
    constructor
    · rintro (none | ⟨other, otherCall, callback, called, published⟩)
      · exact absurd none (List.cons_ne_nil _ _)
      obtain rfl := List.singleton_inj.mp called
      obtain rfl := Option.some.inj (runs.callback.symm.trans callback)
      have textSame := (Publication.mk.inj (List.singleton_inj.mp published)).2
      exact propertySetReplyText_inj.mp textSame
    · intro same
      refine .inr ⟨cb, call, runs.callback, rfl, ?_⟩
      rw [← same]

/-! ## Answers -/

/-- The document `{"RequestID":"1","Identifier":"a","Input":0}`. -/
def sampleCommand : ObjectDocument :=
  Json.tightDocument
    [Json.tightMember (plainItems (ascii "RequestID") requestId_plain)
        (.string (plainItems (ascii "1") one_plain)),
      Json.tightMember (plainItems (ascii "Identifier") (by decide +kernel))
        (.string (plainItems (ascii "a") (by decide +kernel))),
      Json.tightMember (plainItems (ascii "Input") (by decide +kernel))
        (Json.digit 0)]

/-- An answer to the command that is as long as the array for it. -/
def longAnswer : CommandAnswer :=
  ⟨0, ⟨List.replicate 1983 97, fun mem =>
    absurd (List.eq_of_mem_replicate mem) (by decide)⟩⟩

end Dm
end UIoT
