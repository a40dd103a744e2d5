import UIoT.Ota.Client

/-!
# The parameters of a firmware

`ota_lib_get_params` reads the description of a firmware from a message and
installs it in the handle, field after field.  A message that lacks one of the
later fields, or one for which there is no memory, leaves those in front of it
installed.
-/

namespace UIoT
namespace Ota

open Json (liteJsonCopyOf liteJsonValueOf)
open Shadow (sscanfUint32)

/-! ## Descriptions -/

/-- What the handle knows about the firmware. -/
structure Description where
  module : Option (List UInt8)
  version : Option (List UInt8)
  url : Option (List UInt8)
  downloadName : Option (List UInt8)
  md5sum : Option (List UInt8)
  sizeFile : UInt32
  deriving DecidableEq

/-- The description the handle has. -/
def OtaStruct.description (ota : OtaStruct) : Description :=
  ⟨ota.module, ota.version, ota.url, ota.downloadName, ota.md5sum,
    ota.sizeFile⟩

/-- The fields of a message that describe a firmware, as far as it has them. -/
structure Announcement where
  module : Option (List UInt8)
  version : Option (List UInt8)
  url : Option (List UInt8)
  md5 : Option (List UInt8)
  size : Option UInt32

/-- What a message announces. -/
def announcement (msgStr : List UInt8) : Announcement where
  module := liteJsonValueOf (ascii "Payload.Module") (terminated msgStr)
  version := liteJsonValueOf (ascii "Payload.Version") (terminated msgStr)
  url := liteJsonValueOf (ascii "Payload.URL") (terminated msgStr)
  md5 := liteJsonValueOf (ascii "Payload.MD5") (terminated msgStr)
  size := (liteJsonValueOf (ascii "Payload.Size") (terminated msgStr)).bind
    sscanfUint32

namespace Announcement

/-- The fields that can be copied. -/
def copied (fields : Announcement) (copies : Copies) : Announcement where
  module := if copies.module then fields.module else none
  version := if copies.version then fields.version else none
  url := if copies.url then fields.url else none
  md5 := if copies.md5 then fields.md5 else none
  size := if copies.size then fields.size else none

/-- No field is missing, and the size is a number. -/
def Complete (fields : Announcement) : Prop :=
  fields.module.isSome ∧ fields.version.isSome ∧ fields.url.isSome ∧
    fields.md5.isSome ∧ fields.size.isSome

/-- All six parameters are those of the message. -/
def Describes (fields : Announcement) (downloadName : Option (List UInt8))
    (description : Description) : Prop :=
  fields.Complete ∧
    description =
      ⟨fields.module, fields.version, fields.url, downloadName, fields.md5,
        fields.size.getD 0⟩

/-- The fields in front of the first missing one are those the handle has
already. -/
def Repeats (fields : Announcement) (downloadName : Option (List UInt8))
    (before : Description) : Prop :=
  fields.module.isSome →
    fields.module = before.module ∧ (fields.version.isSome →
      fields.version = before.version ∧ (fields.url.isSome →
        fields.url = before.url ∧ downloadName = before.downloadName ∧
          (fields.md5.isSome → fields.md5 = before.md5sum)))

end Announcement

/-- The parameters of a message are installed all together or not at all. -/
def InstallsAtomically (ota : OtaStruct) (msgStr : List UInt8)
    (copies : Copies) (downloadName : Option (List UInt8)) : Prop :=
  match otaLibGetParams ota msgStr copies downloadName with
  | (false, after) => after.description = ota.description
  | (true, after) =>
      (announcement msgStr).Describes downloadName after.description

/-! ## What is installed -/

/-- What `ota_lib_get_params` makes of a description, up to the first missing
field. -/
def Announcement.installed (fields : Announcement)
    (downloadName : Option (List UInt8)) (before : Description) :
    Bool × Description :=
  match fields.module with
  | none => (false, before)
  | some _ =>
  let before := { before with module := fields.module }
  match fields.version with
  | none => (false, before)
  | some _ =>
  let before := { before with version := fields.version }
  match fields.url with
  | none => (false, before)
  | some _ =>
  let before := { before with url := fields.url, downloadName }
  match fields.md5 with
  | none => (false, before)
  | some _ =>
  let before := { before with md5sum := fields.md5 }
  match fields.size with
  | none => (false, before)
  | some fileSize => (true, { before with sizeFile := fileSize })

/-- A size that can be copied is read as it is. -/
theorem copied_size (copied : Bool) (msgStr : List UInt8) :
    (liteJsonCopyOf copied (ascii "Payload.Size") (terminated msgStr)).bind
        sscanfUint32 =
      if copied then (announcement msgStr).size else none := by
  cases copied <;> rfl

theorem otaLibGetParams_description (ota : OtaStruct) (msgStr : List UInt8)
    (copies : Copies) (downloadName : Option (List UInt8)) :
    let (succeeds, after) := otaLibGetParams ota msgStr copies downloadName
    (succeeds, after.description) =
      ((announcement msgStr).copied copies).installed downloadName
        ota.description := by
  unfold otaLibGetParams Announcement.installed Announcement.copied
  dsimp only
  rw [copied_size]
  unfold liteJsonCopyOf announcement
  dsimp only
  cases if copies.module then
    liteJsonValueOf (ascii "Payload.Module") (terminated msgStr) else none with
  | none => rfl
  | some module =>
  cases if copies.version then
    liteJsonValueOf (ascii "Payload.Version") (terminated msgStr) else none with
  | none => rfl
  | some version =>
  cases if copies.url then
    liteJsonValueOf (ascii "Payload.URL") (terminated msgStr) else none with
  | none => rfl
  | some url =>
  cases if copies.md5 then
    liteJsonValueOf (ascii "Payload.MD5") (terminated msgStr) else none with
  | none => rfl
  | some md5 =>
  dsimp only
  cases if copies.size then
    (liteJsonValueOf (ascii "Payload.Size") (terminated msgStr)).bind
      sscanfUint32 else none <;> rfl

/-- Only a complete description is accepted. -/
theorem Announcement.installed_complete {fields : Announcement}
    {downloadName : Option (List UInt8)} {before after : Description}
    (accepted : fields.installed downloadName before = (true, after)) :
    fields.Complete := by
  obtain ⟨module, version, url, md5, size⟩ := fields
  cases module with
  | none => cases accepted
  | some module =>
  cases version with
  | none => cases accepted
  | some version =>
  cases url with
  | none => cases accepted
  | some url =>
  cases md5 with
  | none => cases accepted
  | some md5 =>
  cases size with
  | none => cases accepted
  | some size => exact ⟨rfl, rfl, rfl, rfl, rfl⟩

/-- A description is replaced as a whole or kept exactly if no field is missing
or those in front of the missing one are nothing new. -/
theorem Announcement.installed_iff (fields : Announcement)
    (downloadName : Option (List UInt8)) (before : Description) :
    (match fields.installed downloadName before with
      | (false, after) => after = before
      | (true, after) => fields.Describes downloadName after) ↔
      fields.Complete ∨ fields.Repeats downloadName before := by
  obtain ⟨module, version, url, md5, size⟩ := fields
  obtain ⟨oldModule, oldVersion, oldUrl, oldName, oldMd5, oldSize⟩ := before
  cases module with
  | none => simp [installed, Complete, Repeats]
  | some module =>
  cases version with
  | none => simp [installed, Complete, Repeats]
  | some version =>
  cases url with
  | none => simp [installed, Complete, Repeats]
  | some url =>
  cases md5 with
  | none => simp [installed, Complete, Repeats]
  | some md5 =>
  cases size with
  | none => simp [installed, Complete, Repeats]
  | some size => simp [installed, Complete, Describes]

/-- A field that can be copied is the one of the message. -/
theorem eq_of_copied {α : Type} {copied : Bool} {field : Option α}
    (read : (if copied then field else none).isSome) :
    (if copied then field else none) = field := by
  cases copied with
  | false => cases read
  | true => rfl

/-- All fields that can be copied are all those of the message. -/
theorem Announcement.copied_eq {fields : Announcement} {copies : Copies}
    (complete : (fields.copied copies).Complete) :
    fields.copied copies = fields := by
  obtain ⟨module, version, url, md5, size⟩ := complete
  unfold copied at module version url md5 size ⊢
  rw [eq_of_copied module, eq_of_copied version, eq_of_copied url,
    eq_of_copied md5, eq_of_copied size]

/-- The parameters of a message are installed atomically exactly if no field is
missing or cannot be copied, or those in front of the first such field are
nothing new. -/
theorem otaLibGetParams_atomic_iff (ota : OtaStruct) (msgStr : List UInt8)
    (copies : Copies) (downloadName : Option (List UInt8)) :
    InstallsAtomically ota msgStr copies downloadName ↔
      ((announcement msgStr).copied copies).Complete ∨
        ((announcement msgStr).copied copies).Repeats downloadName
          ota.description := by
  have installed := otaLibGetParams_description ota msgStr copies downloadName
  rw [← Announcement.installed_iff]
  unfold InstallsAtomically
  generalize otaLibGetParams ota msgStr copies downloadName = result
    at installed ⊢
  obtain ⟨succeeds, after⟩ := result
  rw [← installed]
  cases succeeds with
  | false => exact Iff.rfl
  | true =>
      have complete : ((announcement msgStr).copied copies).Complete :=
        Announcement.installed_complete installed.symm
      dsimp only
      rw [Announcement.copied_eq complete]

/-- A message with a module only. -/
def moduleMessage : List UInt8 :=
  ascii "\x7b\"Payload\":\x7b\"Module\":\"m\"\x7d\x7d"

/-- The module of a message without a version is installed. -/
theorem moduleMessage_installed :
    ¬∀ (ota : OtaStruct) (msgStr : List UInt8) (copies : Copies)
      (downloadName : Option (List UInt8)),
      InstallsAtomically ota msgStr copies downloadName := by
  intro all
  have atomic := all iotOtaInit moduleMessage .all none
  have refused :
      (otaLibGetParams iotOtaInit moduleMessage .all none).1 = false ∧
        (otaLibGetParams iotOtaInit moduleMessage .all none).2.description ≠
          iotOtaInit.description := by
    decide +kernel
  unfold InstallsAtomically at atomic
  generalize otaLibGetParams iotOtaInit moduleMessage .all none = result
    at atomic refused
  obtain ⟨succeeds, after⟩ := result
  obtain ⟨failed, changed⟩ := refused
  obtain rfl : succeeds = false := failed
  exact changed atomic

end Ota
end UIoT
