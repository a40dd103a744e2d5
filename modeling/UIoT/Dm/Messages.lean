import UIoT.Defs
import UIoT.Json.FirstMember
import UIoT.Library.JsonMeaning

/-!
# Device model messages

Each callback of `dm_mqtt.c` copies the payload of a message into a string and
looks its members up with `LITE_json_value_of`.
-/

namespace UIoT
namespace Dm

open Json (Scanned slice)
open JsonSyntax

/-! ## Limits -/

/-- `DM_TOPIC_BUF_LEN` -/
def dmTopicBufLen : Nat := 128

/-- `DM_MSG_REPLY_BUF_LEN` -/
def dmMsgReplyBufLen : Nat := 128

/-- `DM_MSG_REPORT_BUF_LEN` -/
def dmMsgReportBufLen : Nat := 2048

/-- `DM_CMD_REPLY_BUF_LEN` -/
def dmCmdReplyBufLen : Nat := 2048

/-! ## Members -/

/-- A member of a message as the callbacks look it up, with the outcome of the
allocation of its copy: `HAL_Snprintf` has copied the payload up to its first
zero byte. -/
def messageMember (copied : Bool) (key : String) (payload : List UInt8) :
    Option (List UInt8) :=
  Json.liteJsonCopyOf copied (ascii key) (Json.cString payload ++ [0])

/-- A member that is looked up has been copied. -/
theorem copied_of_member {copied : Bool} {key : String}
    {payload text : List UInt8}
    (found : messageMember copied key payload = some text) : copied = true := by
  cases copied with
  | false => cases found
  | true => rfl

/-- The text of the first member the search meets for the key. -/
def metText (key : String) (document : ObjectDocument) :
    Option (List UInt8) :=
  (document.members.find? fun member =>
    Json.Member.Meets (ascii key) member).map fun member => slice member.value

/-- The value of the first member that has the key. -/
def named (key : String) (document : ObjectDocument) : Option Value :=
  memberValue (ascii key) document.members

/-- The key is no path and has no quote in it. -/
def SimpleKey (key : String) : Prop :=
  46 ∉ ascii key ∧ 34 ∉ ascii key ∧ 0 ∉ ascii key

instance (key : String) : Decidable (SimpleKey key) :=
  inferInstanceAs (Decidable (_ ∧ _ ∧ _))

theorem document_text_ne_zero (document : ObjectDocument) :
    0 ∉ document.text := by
  simp [ObjectDocument.text, document.before.ne_zero, document.after.ne_zero,
    document.value.ne_zero]

/-- A message is copied in whole. -/
theorem cString_text (document : ObjectDocument) :
    Json.cString document.text = document.text := by
  apply List.takeWhile_eq_self_iff.mpr
  intro byte mem
  have nonzero : byte ≠ 0 := fun zero =>
    document_text_ne_zero document (zero ▸ mem)
  simpa using nonzero

/-- The scan comes through the message to the first member met for the key. -/
def ScannedTo (key : String) (document : ObjectDocument) : Prop :=
  Scanned (ascii key) document

/-- The callbacks find the first member met for a key. -/
theorem messageMember_eq {document : ObjectDocument} {key : String}
    (scanned : ScannedTo key document) (simple : SimpleKey key) :
    messageMember true key document.text = metText key document := by
  unfold messageMember
  rw [cString_text, Json.liteJsonCopyOf_true,
    Json.liteJsonValueOf_members scanned simple.1 simple.2.1 simple.2.2,
    metText]

/-! ## Texts of samples -/

theorem requestId_plain :
    ∀ byte ∈ ascii "RequestID", JsonSyntax.PlainByte byte := by
  decide +kernel

theorem one_plain : ∀ byte ∈ ascii "1", JsonSyntax.PlainByte byte := by
  decide +kernel

end Dm
end UIoT
