import UIoT.Dm.Messages
import UIoT.Library.JsonMeaning
import UIoT.Library.JsonNumbers
import UIoT.Shadow.Values

/-!
# Replies

The callbacks of `dm_mqtt.c` for replies read the request id and the return code
of a message and pass them on.  The code goes through 16 and then 8 bits before
it becomes the `int` that is passed, and either member may be mistaken for one
whose key only begins the same way.
-/

namespace UIoT
namespace Dm

open JsonSyntax
open Shadow (sscanfInt liteGetInt8)

/-! ## The callbacks -/

/-- The `DM_Type`s whose messages are replies. -/
inductive ReplyType
  | propertyRestore
  | propertyPost
  | propertyDesiredGet
  | propertyDesiredDelete
  | eventPost
  deriving DecidableEq, Repr

/-- What a registered callback is called with. -/
structure Reply where
  requestId : List UInt8
  retCode : Int32
  argument : Option (List UInt8)
  deriving DecidableEq

/-- What a reply gets from its surroundings: whether a callback is registered,
and whether the payload and the members looked up in it can be copied. -/
structure ReplyEnv where
  registered : Bool
  msgAllocated : Bool
  retCodeCopied : Bool
  requestIdCopied : Bool
  argumentCopied : Bool

/-- The body that all callbacks for replies have, with the key of the member
that `dm_mqtt_property_restore_cb` and `dm_mqtt_property_desired_get_cb` look up
besides.  The calls of the registered callback are answered. -/
def replyCb (argumentKey : Option String) (env : ReplyEnv)
    (payload : List UInt8) : List Reply :=
  if !env.msgAllocated then []
  else
    match messageMember env.retCodeCopied "RetCode" payload with
    | none => []
    | some retCodeChar =>
        match liteGetInt8 retCodeChar with
        | none => []
        | some retCode =>
            match messageMember env.requestIdCopied "RequestID" payload with
            | none => []
            | some requestId =>
                match argumentKey with
                | none => [⟨requestId, retCode.toInt32, none⟩]
                | some key =>
                    match messageMember env.argumentCopied key payload with
                    | none => []
                    | some argument =>
                        [⟨requestId, retCode.toInt32, some argument⟩]

/-- `_dm_mqtt_common_reply_cb` -/
def dmMqttCommonReplyCb (env : ReplyEnv) (payload : List UInt8) :
    List Reply :=
  replyCb none env payload

/-- `dm_mqtt_property_restore_cb` -/
def dmMqttPropertyRestoreCb (env : ReplyEnv) (payload : List UInt8) :
    List Reply :=
  if env.registered then replyCb (some "Property") env payload else []

/-- `dm_mqtt_property_post_cb` -/
def dmMqttPropertyPostCb (env : ReplyEnv) (payload : List UInt8) :
    List Reply :=
  if env.registered then dmMqttCommonReplyCb env payload else []

/-- `dm_mqtt_property_desired_get_cb` -/
def dmMqttPropertyDesiredGetCb (env : ReplyEnv) (payload : List UInt8) :
    List Reply :=
  if env.registered then replyCb (some "Desired") env payload else []

/-- `dm_mqtt_property_desired_delete_cb` -/
def dmMqttPropertyDesiredDeleteCb (env : ReplyEnv) (payload : List UInt8) :
    List Reply :=
  if env.registered then dmMqttCommonReplyCb env payload else []

/-- `dm_mqtt_event_post_cb` -/
def dmMqttEventPostCb (env : ReplyEnv) (payload : List UInt8) : List Reply :=
  if env.registered then dmMqttCommonReplyCb env payload else []

/-- The entry of `g_dm_mqtt_cb` for a reply. -/
def onReply : ReplyType → ReplyEnv → List UInt8 → List Reply
  | .propertyRestore => dmMqttPropertyRestoreCb
  | .propertyPost => dmMqttPropertyPostCb
  | .propertyDesiredGet => dmMqttPropertyDesiredGetCb
  | .propertyDesiredDelete => dmMqttPropertyDesiredDeleteCb
  | .eventPost => dmMqttEventPostCb

/-- The member that the callback for a reply looks up besides. -/
def ReplyType.argumentKey : ReplyType → Option String
  | propertyRestore => some "Property"
  | propertyDesiredGet => some "Desired"
  | propertyPost | propertyDesiredDelete | eventPost => none

theorem onReply_eq (type : ReplyType) (env : ReplyEnv)
    (payload : List UInt8) :
    onReply type env payload =
      if env.registered then replyCb type.argumentKey env payload
      else [] := by
  cases type <;> rfl

/-! ## What a reply says -/

/-- The document is a reply with the request id and the return code: the one is
a string, the other a number that fits in 32 bits. -/
structure IsReply (type : ReplyType) (document : ObjectDocument)
    (requestId : List UInt8) (retCode : Int) : Prop where
  string : ∃ items, named "RequestID" document = some (.string items) ∧
    stringValue items = requestId
  number : ∃ number, named "RetCode" document = some (.number number) ∧
    number.value = retCode
  fits : -2 ^ 31 ≤ retCode ∧ retCode < 2 ^ 31
  argument : ∀ key ∈ type.argumentKey, (named key document).isSome

/-- The document lacks one of the members of a reply. -/
def Incomplete (document : ObjectDocument) : Prop :=
  named "RequestID" document = none ∨ named "RetCode" document = none

/-- A reply is passed on once, with its request id and its return code, and a
document without one of them is not. -/
def PassesOn (type : ReplyType) (env : ReplyEnv) (document : ObjectDocument) :
    Prop :=
  (∀ requestId retCode, IsReply type document requestId retCode →
    ∃ reply, onReply type env document.text = [reply] ∧
      reply.requestId = requestId ∧ (reply.retCode = 0 ↔ retCode = 0) ∧
      reply.retCode.toInt = retCode) ∧
  (Incomplete document → onReply type env document.text = [])

/-! ## What is read of it -/

/-- The text is scanned as a number whose low eight bits, taken with their sign,
are the return code. -/
def ReadsAs (text : List UInt8) (retCode : Int) : Prop :=
  ∃ number, sscanfInt text = some number ∧ number.bmod (2 ^ 8) = retCode

/-- The first members met are a reply with the request id and the return
code. -/
structure MetAsReply (type : ReplyType) (document : ObjectDocument)
    (requestId : List UInt8) (retCode : Int) : Prop where
  string : metText "RequestID" document = some requestId
  number : ∃ text, metText "RetCode" document = some text ∧
    ReadsAs text retCode
  argument : ∀ key ∈ type.argumentKey, (metText key document).isSome

/-- A callback is registered, and everything it takes can be copied. -/
structure ReplyEnv.Serves (env : ReplyEnv) (type : ReplyType) : Prop where
  registered : env.registered = true
  message : env.msgAllocated = true
  retCode : env.retCodeCopied = true
  requestId : env.requestIdCopied = true
  argument : type.argumentKey ≠ none → env.argumentCopied = true

/-- The scan comes through a message that is served to the members looked up in
it, one after the other: where the claim says anything of it. -/
def ReplyScanned (type : ReplyType) (env : ReplyEnv)
    (document : ObjectDocument) : Prop :=
  (∃ requestId retCode, IsReply type document requestId retCode) ∨
      Incomplete document →
  env.Serves type →
    ScannedTo "RetCode" document ∧
      ∀ text, metText "RetCode" document = some text → (sscanfInt text).isSome →
        ScannedTo "RequestID" document ∧
          ((metText "RequestID" document).isSome →
            ∀ key ∈ type.argumentKey, ScannedTo key document)

/-- The callback is called where the first members met are those of a reply that
the document is, and it is not called where the document lacks one of them. -/
def ReadRight (type : ReplyType) (env : ReplyEnv) (document : ObjectDocument) :
    Prop :=
  (∀ requestId retCode, IsReply type document requestId retCode →
    env.Serves type ∧ MetAsReply type document requestId retCode) ∧
  (Incomplete document → env.Serves type →
    ∀ requestId retCode, ¬MetAsReply type document requestId retCode)

theorem liteGetInt8_eq (text : List UInt8) :
    liteGetInt8 text = (sscanfInt text).map Int8.ofInt := by
  unfold liteGetInt8 Shadow.liteGetInt16
  rw [Option.map_map]
  congr 1
  funext number
  exact Int16.toInt8_ofInt

theorem readsAs_iff {text : List UInt8} {retCode : Int} :
    ReadsAs text retCode ↔
      ∃ narrow, liteGetInt8 text = some narrow ∧ narrow.toInt = retCode := by
  rw [liteGetInt8_eq]
  constructor
  · rintro ⟨number, scanned, low⟩
    refine ⟨Int8.ofInt number, ?_, ?_⟩
    · rw [scanned, Option.map_some]
    · rw [Int8.toInt_ofInt]
      exact low
  · rintro ⟨narrow, read, same⟩
    obtain ⟨number, scanned, rfl⟩ := Option.map_eq_some_iff.mp read
    rw [Int8.toInt_ofInt] at same
    exact ⟨number, scanned, same⟩

/-- An integer is scanned as it is, within the bounds of `long`. -/
theorem sscanfInt_integer {number : Number} (fraction : number.fraction = none)
    (exponent : number.exponent = none) (lower : -2 ^ 63 ≤ number.signed)
    (upper : number.signed < 2 ^ 63) :
    sscanfInt number.bytes = some number.signed := by
  have scanned : Shadow.scanNumber number.whole.bytes =
      some number.whole.number := by
    rcases number.noLeadingZero with zero | head
    · unfold Digits.number
      rw [zero]
      decide
    · exact Shadow.scanNumber_of_range number.whole.some_digit head
        number.whole.digit
  rw [Number.bytes_of_integer fraction exponent,
    Shadow.sscanfInt_signed number.whole.some_digit number.whole.digit scanned]
  unfold Number.signed at lower upper ⊢
  cases negative : number.negative with
  | true =>
      rw [negative, if_pos rfl] at lower
      rw [if_pos rfl, if_pos rfl, max_eq_right lower]
  | false =>
      rw [negative, if_neg (by decide)] at upper
      rw [if_neg (by decide), if_neg (by decide), min_eq_right (by omega)]

/-- An integer is read as itself exactly if it fits in eight bits. -/
theorem readsAs_integer_iff {number : Number}
    (fraction : number.fraction = none) (exponent : number.exponent = none)
    (lower : -2 ^ 63 ≤ number.signed) (upper : number.signed < 2 ^ 63) :
    ReadsAs number.bytes number.signed ↔
      -2 ^ 7 ≤ number.signed ∧ number.signed < 2 ^ 7 := by
  unfold ReadsAs
  rw [sscanfInt_integer fraction exponent lower upper]
  simp only [Option.some.injEq, exists_eq_left']
  rw [Int.bmod_def]
  omega

theorem argumentKey_simple {type : ReplyType} {key : String}
    (looked : key ∈ type.argumentKey) : SimpleKey key := by
  cases type <;> cases looked <;> decide

/-- Where a message is not served no callback is called. -/
theorem onReply_unserved {type : ReplyType} {env : ReplyEnv}
    (unserved : ¬env.Serves type) (payload : List UInt8) :
    onReply type env payload = [] := by
  rw [onReply_eq]
  split
  case isFalse => rfl
  case isTrue registered =>
    unfold replyCb
    cases message : env.msgAllocated
    case false => rfl
    rw [if_neg (by decide)]
    cases code : env.retCodeCopied
    case false => rfl
    split
    · rfl
    split
    · rfl
    cases id : env.requestIdCopied
    case false => rfl
    split
    · rfl
    split
    case h_1 none =>
      exact absurd ⟨registered, message, code, id, fun some => absurd none some⟩
        unserved
    case h_2 =>
      cases argument : env.argumentCopied
      case false => rfl
      exact absurd ⟨registered, message, code, id, fun _ => argument⟩ unserved

/-- A message that is served and scanned makes one call at most, of what the
first members met say. -/
theorem onReply_cases {type : ReplyType} {env : ReplyEnv}
    {document : ObjectDocument} (serves : env.Serves type)
    (code : ScannedTo "RetCode" document)
    (rest : ∀ text, metText "RetCode" document = some text →
      (sscanfInt text).isSome → ScannedTo "RequestID" document ∧
        ((metText "RequestID" document).isSome →
          ∀ key ∈ type.argumentKey, ScannedTo key document)) :
    (∃ reply, onReply type env document.text = [reply] ∧
        MetAsReply type document reply.requestId reply.retCode.toInt) ∨
      (onReply type env document.text = [] ∧
        ∀ requestId retCode, ¬MetAsReply type document requestId retCode) := by
  rw [onReply_eq, if_pos serves.registered]
  unfold replyCb
  rw [serves.message, serves.retCode, serves.requestId,
    if_neg (by decide), messageMember_eq code (by decide)]
  cases codeText : metText "RetCode" document with
  | none =>
      refine .inr ⟨rfl, fun requestId retCode met => ?_⟩
      obtain ⟨text, found, -⟩ := met.number
      rw [codeText] at found
      cases found
  | some retCodeChar =>
      dsimp only
      cases read : liteGetInt8 retCodeChar with
      | none =>
          refine .inr ⟨rfl, fun requestId retCode met => ?_⟩
          obtain ⟨text, found, reads⟩ := met.number
          obtain ⟨narrow, scanned, -⟩ := readsAs_iff.mp reads
          rw [codeText] at found
          cases found
          rw [read] at scanned
          cases scanned
      | some narrow =>
          have number : ∃ text, some retCodeChar = some text ∧
              ReadsAs text narrow.toInt32.toInt :=
            ⟨retCodeChar, rfl, readsAs_iff.mpr
              ⟨narrow, read, (Int8.toInt_toInt32 narrow).symm⟩⟩
          have scans : (sscanfInt retCodeChar).isSome := by
            rw [liteGetInt8_eq] at read
            obtain ⟨scanned, some, -⟩ := Option.map_eq_some_iff.mp read
            rw [some]
            rfl
          obtain ⟨idScanned, later⟩ := rest retCodeChar codeText scans
          dsimp only
          rw [messageMember_eq idScanned (by decide)]
          cases id : metText "RequestID" document with
          | none =>
              refine .inr ⟨rfl, fun requestId retCode met => ?_⟩
              have found := met.string
              rw [id] at found
              cases found
          | some requestId =>
              dsimp only
              cases key : type.argumentKey with
              | none =>
                  refine .inl ⟨_, rfl, id, ?_, ?_⟩
                  · rw [codeText]
                    exact number
                  · rw [key]
                    exact nofun
              | some key' =>
                  have simple := argumentKey_simple key
                  have copied := serves.argument (by simp [key])
                  have argumentScanned := later (by simp [id]) key' key
                  dsimp only
                  rw [copied, messageMember_eq argumentScanned simple]
                  cases argument : metText key' document with
                  | none =>
                      refine .inr ⟨rfl, fun requestId retCode met => ?_⟩
                      have found := met.argument key' key
                      rw [argument] at found
                      cases found
                  | some argument' =>
                      refine .inl ⟨_, rfl, id, ?_, ?_⟩
                      · rw [codeText]
                        exact number
                      · rw [key]
                        rintro other ⟨⟩
                        rw [argument]
                        rfl

/-- The first members met are those of one reply only. -/
theorem MetAsReply.unique {type : ReplyType} {document : ObjectDocument}
    {firstId secondId : List UInt8} {firstCode secondCode : Int}
    (first : MetAsReply type document firstId firstCode)
    (second : MetAsReply type document secondId secondCode) :
    firstId = secondId ∧ firstCode = secondCode := by
  obtain ⟨text, found, number, scanned, low⟩ := first.number
  obtain ⟨otherText, otherFound, other, otherScanned, otherLow⟩ := second.number
  constructor
  · exact Option.some.inj (first.string.symm.trans second.string)
  · obtain rfl := Option.some.inj (found.symm.trans otherFound)
    obtain rfl := Option.some.inj (scanned.symm.trans otherScanned)
    exact low.symm.trans otherLow

/-- A callback is called once for the members of a reply that are met, and not
at all where none are or the message is not served. -/
theorem onReply_iff {type : ReplyType} {env : ReplyEnv}
    {document : ObjectDocument} (scanned : ReplyScanned type env document)
    (asked : (∃ requestId retCode, IsReply type document requestId retCode) ∨
      Incomplete document) :
    (∀ requestId retCode,
      (∃ reply, onReply type env document.text = [reply] ∧
          reply.requestId = requestId ∧ reply.retCode.toInt = retCode) ↔
        env.Serves type ∧ MetAsReply type document requestId retCode) ∧
      (onReply type env document.text = [] ↔
        (env.Serves type → ∀ requestId retCode,
          ¬MetAsReply type document requestId retCode)) := by
  by_cases serves : env.Serves type
  · obtain ⟨code, rest⟩ := scanned asked serves
    rcases onReply_cases serves code rest with ⟨reply, called, met⟩ |
      ⟨silent, unmet⟩
    · rw [called]
      refine ⟨fun requestId retCode => ⟨?_, ?_⟩,
        iff_of_false nofun fun unmet => unmet serves _ _ met⟩
      · rintro ⟨reply, ⟨⟩, rfl, rfl⟩
        exact ⟨serves, met⟩
      · rintro ⟨-, other⟩
        obtain ⟨sameId, sameCode⟩ := met.unique other
        exact ⟨reply, rfl, sameId, sameCode⟩
    · rw [silent]
      refine ⟨fun requestId retCode => ⟨?_, ?_⟩, iff_of_true rfl fun _ => unmet⟩
      · rintro ⟨reply, ⟨⟩, -⟩
      · exact fun called => absurd called.2 (unmet _ _)
  · rw [onReply_unserved serves]
    refine ⟨fun requestId retCode => ⟨?_, ?_⟩,
      iff_of_true rfl fun served => absurd served serves⟩
    · rintro ⟨reply, ⟨⟩, -⟩
    · exact fun called => absurd called.1 serves

/-! ## Passing a reply on -/

/-- Where a document is scanned without losing the way and read right it is
passed on right; and where it is scanned so it is passed on right only then. -/
theorem onReply_passesOn_iff (type : ReplyType) (env : ReplyEnv)
    (document : ObjectDocument) :
    (ReplyScanned type env document ∧ ReadRight type env document →
        PassesOn type env document) ∧
      (ReplyScanned type env document → PassesOn type env document →
        ReadRight type env document) := by
  have passesOn_iff : ReplyScanned type env document →
      (PassesOn type env document ↔ ReadRight type env document) := by
    intro scanned
    refine and_congr ?_ (imp_congr_right fun incomplete =>
      (onReply_iff scanned (.inr incomplete)).2)
    refine forall₂_congr fun requestId retCode =>
      imp_congr_right fun isReply => ?_
    have asked := onReply_iff scanned (.inl ⟨requestId, retCode, isReply⟩)
    rw [← asked.1]
    refine exists_congr fun reply => and_congr_right fun _ =>
      and_congr_right fun _ => ?_
    constructor
    · exact And.right
    · rintro rfl
      refine ⟨?_, rfl⟩
      rw [← Int32.toInt_inj, Int32.toInt_zero]
  exact ⟨fun ⟨scanned, right⟩ => (passesOn_iff scanned).mpr right,
    fun scanned => (passesOn_iff scanned).mp⟩

/-- The document `{"RequestID":"1","RetCode":256}`. -/
def narrowedReply : ObjectDocument :=
  Json.tightDocument
    [Json.tightMember (plainItems (ascii "RequestID") requestId_plain)
        (.string (plainItems (ascii "1") one_plain)),
      Json.tightMember (plainItems (ascii "RetCode") (by decide +kernel))
        (.number
          { negative := false
            whole :=
              { bytes := ascii "256"
                some_digit := by decide +kernel
                digit := by decide +kernel }
            noLeadingZero := by decide +kernel
            fraction := none
            exponent := none })]

/-- The return code 256 is passed on as a success. -/
theorem narrowedReply_succeeds :
    ¬∀ (type : ReplyType) (env : ReplyEnv) (document : ObjectDocument),
      PassesOn type env document := by
  intro all
  have isReply : IsReply .propertyPost narrowedReply (ascii "1") 256 := by
    refine ⟨⟨_, rfl, ?_⟩, ⟨_, rfl, ?_⟩, by decide, by decide⟩
    · exact stringValue_plainItems _
    · rw [Number.value_of_integer rfl rfl]
      norm_cast
  obtain ⟨reply, called, -, zero_iff, -⟩ :=
    (all .propertyPost ⟨true, true, true, true, true⟩ narrowedReply).1
      (ascii "1") 256 isReply
  have passed :
      onReply .propertyPost ⟨true, true, true, true, true⟩ narrowedReply.text =
        [⟨ascii "1", 0, none⟩] := by decide +kernel
  obtain rfl := List.singleton_inj.mp (passed.symm.trans called)
  exact absurd (zero_iff.mp rfl) (by decide)

end Dm
end UIoT
