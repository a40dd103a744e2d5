import UIoT.Ota.Phases

/-!
# Checking a firmware

The check of a fetched firmware ends the running digest in place.  A check made
after another one therefore looks at the digest of the data with the padding
the first one has added, and a check that rejects the firmware ends in a report
that has an outcome only without memory for it.
-/

namespace UIoT
namespace Ota

open Md5 (Fed md5Hex)

/-! ## Downloads and their checks -/

/-- What one call of `IOT_OTA_FetchYield` has put into its buffer. -/
structure Chunk where
  bytes : List UInt8
  short : bytes.length < 2 ^ 31

/-- A handle that has fetched the chunks of a firmware with an announced digest
since its own digest was started, and no more. -/
def fetchedOf (ota : OtaStruct) (md5sum : List UInt8) (chunks : List Chunk) :
    OtaStruct :=
  { (chunks.map Chunk.bytes).foldl countFetched
      { ota with md5sum := some md5sum, md5 := Md5.utilsMd5Starts } with
    state := .fetched }

/-- Checks made one after the other, each with or without memory for the report
of a failure: their answers, and the handle behind each of them. -/
def checks (ota : OtaStruct) :
    List Bool → Option (List (Option Bool × OtaStruct))
  | [] => some []
  | failAllocated :: rest =>
      (ioctlCheckFirmware ota failAllocated).bind fun result =>
        (checks result.2 rest).map (result :: ·)

/-- All checks return, and each answers so. -/
def AllAnswer (ota : OtaStruct) (answer : Bool) (failAllocated : List Bool) :
    Prop :=
  ∃ results, checks ota failAllocated = some results ∧
    ∀ result ∈ results, result.1 = some answer

/-- All checks return, and each leaves the counters and the digest alone. -/
def AllKeep (ota : OtaStruct) (failAllocated : List Bool) : Prop :=
  ∃ results, checks ota failAllocated = some results ∧
    ∀ result ∈ results, result.2.content = ota.content ∧
      result.2.sizeLastFetched = ota.sizeLastFetched

/-! ## What a check does -/

/-- A handle that has fetched these data, the padding of earlier checks at their
end, and compares their digest with the announced one. -/
structure Checked (ota : OtaStruct) (md5sum data : List UInt8) : Prop where
  state : ota.state = .fetched
  announced : ota.md5sum = some md5sum
  fed : Fed ota.md5 data

/-- What is counted leaves the announced digest alone. -/
theorem foldl_countFetched (pieces : List (List UInt8)) (start : OtaStruct) :
    (pieces.foldl countFetched start).md5 =
        pieces.foldl Md5.utilsMd5Update start.md5 ∧
      (pieces.foldl countFetched start).md5sum = start.md5sum := by
  induction pieces generalizing start with
  | nil => exact ⟨rfl, rfl⟩
  | cons piece pieces inductionHypothesis =>
      exact inductionHypothesis (countFetched start piece)

theorem checked_fetchedOf (ota : OtaStruct) (md5sum : List UInt8)
    (chunks : List Chunk) :
    Checked (fetchedOf ota md5sum chunks) md5sum
      (chunks.map Chunk.bytes).flatten := by
  have small : ∀ piece ∈ chunks.map Chunk.bytes, piece.length < 2 ^ 32 := by
    intro piece mem
    obtain ⟨chunk, -, rfl⟩ := List.mem_map.mp mem
    exact chunk.short.trans (by decide)
  have fed := (StreamingHash.starts_fed Md5.utilsMd5Process
    Md5.initialWords).foldl small
  obtain ⟨digest, announced⟩ := foldl_countFetched (chunks.map Chunk.bytes)
    { ota with md5sum := some md5sum, md5 := Md5.utilsMd5Starts }
  refine ⟨rfl, announced, ?_⟩
  change Fed ((chunks.map Chunk.bytes).foldl countFetched
    { ota with md5sum := some md5sum, md5 := Md5.utilsMd5Starts }).md5 _
  rw [digest]
  exact fed

/-- A check answers about the data and adds their padding, unless it rejects
them with memory for its report. -/
theorem Checked.check {ota : OtaStruct} {md5sum data : List UInt8}
    (checked : Checked ota md5sum data) (failAllocated : Bool) :
    if md5sum ≠ md5Hex data ∧ failAllocated then
      ioctlCheckFirmware ota failAllocated = none
    else
      ∃ after, ioctlCheckFirmware ota failAllocated =
          some (some (decide (md5sum = md5Hex data)), after) ∧
        Checked after md5sum (StreamingHash.padded Md5.msglen data) := by
  have answer := Md5.utilsMd5FinishHb2hex_eq checked.fed
  have fed := Md5.utilsMd5FinishHb2hex_fed checked.fed
  have state := checked.state
  unfold ioctlCheckFirmware
  rw [if_neg (not_not_intro state)]
  generalize Md5.utilsMd5FinishHb2hex ota.md5 = ended at answer fed ⊢
  obtain ⟨md5Str, md5⟩ := ended
  obtain rfl : md5Str = md5Hex data := answer
  dsimp only
  rw [checked.announced, Option.bind_some]
  by_cases matching : md5sum = md5Hex data
  · rw [if_neg fun rejected => rejected.1 matching, if_pos matching,
      decide_eq_true matching]
    exact ⟨_, rfl, state, rfl, fed⟩
  · have ready : ota.state ≠ .uninited := by
      rw [state]
      decide
    rw [if_neg matching, decide_eq_false matching]
    unfold iotOtaReportFail
    rw [if_neg ready]
    cases failAllocated with
    | true =>
        rw [if_pos ⟨matching, rfl⟩]
        rfl
    | false =>
        rw [if_neg fun rejected => absurd rejected.2 (by decide)]
        exact ⟨_, rfl, state, rfl, fed⟩

/-- Checks that all answer the same: each compares the data with the padding of
those before it, and one that rejects them has no memory for its report. -/
theorem Checked.allAnswer_iff {ota : OtaStruct} {md5sum data : List UInt8}
    (checked : Checked ota md5sum data) (answer : Bool)
    (failAllocated : List Bool) :
    AllAnswer ota answer failAllocated ↔
      ∀ (count : Nat) (_ : count < failAllocated.length),
        let checkedData := (StreamingHash.padded Md5.msglen)^[count] data
        decide (md5sum = md5Hex checkedData) = answer ∧
          (md5sum ≠ md5Hex checkedData → failAllocated[count] = false) := by
  induction failAllocated generalizing ota data with
  | nil =>
      refine iff_of_true ⟨[], rfl, List.forall_mem_nil _⟩ ?_
      intro count small
      exact absurd small (Nat.not_lt_zero count)
  | cons first rest inductionHypothesis =>
      have check := checked.check first
      unfold AllAnswer
      rw [checks]
      split at check
      · rename_i rejected
        rw [check]
        refine iff_of_false (fun returns => ?_) fun all => ?_
        · obtain ⟨results, none, -⟩ := returns
          cases none
        · have noMemory := (all 0 (Nat.succ_pos _)).2 rejected.1
          rw [List.getElem_cons_zero, rejected.2] at noMemory
          cases noMemory
      · rename_i accepted
        obtain ⟨after, returns, still⟩ := check
        rw [returns, Option.bind_some]
        have later := inductionHypothesis still
        constructor
        · rintro ⟨results, same, answers⟩
          obtain ⟨others, rest_eq, rfl⟩ := Option.map_eq_some_iff.mp same
          obtain ⟨here, there⟩ := List.forall_mem_cons.mp answers
          rintro (_ | count) small
          · refine ⟨Option.some.inj here, fun mismatch => ?_⟩
            exact Bool.eq_false_iff.mpr fun memory =>
              accepted ⟨mismatch, memory⟩
          · exact later.mp ⟨others, rest_eq, there⟩ count
              (Nat.lt_of_succ_lt_succ small)
        · intro all
          obtain ⟨others, rest_eq, there⟩ := later.mpr fun count small =>
            all (count + 1) (Nat.succ_lt_succ small)
          refine ⟨_, Option.map_eq_some_iff.mpr ⟨others, rest_eq, rfl⟩, ?_⟩
          refine List.forall_mem_cons.mpr ⟨?_, there⟩
          exact congrArg some (all 0 (Nat.succ_pos _)).1

/-- A check that returns has changed the digest. -/
theorem Checked.check_content {ota after : OtaStruct}
    {md5sum data : List UInt8} (checked : Checked ota md5sum data)
    {failAllocated : Bool} {answer : Option Bool}
    (returns : ioctlCheckFirmware ota failAllocated = some (answer, after)) :
    after.content ≠ ota.content := by
  have check := checked.check failAllocated
  rw [returns] at check
  split at check
  · cases check
  · obtain ⟨other, same, still⟩ := check
    obtain ⟨-, rfl⟩ := Prod.mk.inj (Option.some.inj same)
    intro kept
    have md5 : after.md5 = ota.md5 := congrArg Content.md5 kept
    have before := checked.fed.total
    have behind := still.fed.total
    have length : (StreamingHash.padded Md5.msglen data).length =
        data.length + ((119 - data.length % 64) % 64 + 9) := by
      simp [StreamingHash.padded, Md5.msglen, Md5.putUint32Le]
    rw [md5] at behind
    omega

theorem Checked.allKeep_iff {ota : OtaStruct} {md5sum data : List UInt8}
    (checked : Checked ota md5sum data) (failAllocated : List Bool) :
    AllKeep ota failAllocated ↔ failAllocated = [] := by
  constructor
  · rintro ⟨results, returns, kept⟩
    cases failAllocated with
    | nil => rfl
    | cons first rest =>
        obtain ⟨⟨answer, after⟩, check, later⟩ :=
          Option.bind_eq_some_iff.mp returns
        obtain ⟨others, -, rfl⟩ := Option.map_eq_some_iff.mp later
        exact absurd (kept _ List.mem_cons_self).1
          (checked.check_content check)
  · rintro rfl
    exact ⟨[], rfl, List.forall_mem_nil _⟩

/-! ## Repeated checks -/

/-- Checks of a fetched firmware leave it alone exactly if none is made.  They
all give the right answer exactly if the padding they add makes no difference to
the comparison with the announced digest, and none that rejects the firmware has
memory for its report. -/
theorem checks_alone_iff (ota : OtaStruct) (md5sum : List UInt8)
    (chunks : List Chunk) (failAllocated : List Bool) :
    let data := (chunks.map Chunk.bytes).flatten
    let fetched := fetchedOf ota md5sum chunks
    (AllKeep fetched failAllocated ↔ failAllocated = []) ∧
      (AllAnswer fetched (decide (md5sum = md5Hex data)) failAllocated ↔
        ∀ (count : Nat) (_ : count < failAllocated.length),
          (md5sum = md5Hex ((StreamingHash.padded Md5.msglen)^[count] data) ↔
            md5sum = md5Hex data) ∧
          (md5sum ≠ md5Hex data → failAllocated[count] = false)) := by
  intro data fetched
  have checked : Checked fetched md5sum data :=
    checked_fetchedOf ota md5sum chunks
  refine ⟨checked.allKeep_iff failAllocated, ?_⟩
  rw [checked.allAnswer_iff]
  refine forall₂_congr fun count small => ?_
  dsimp only
  rw [decide_eq_decide]
  exact and_congr_right fun same => by rw [ne_eq, same]

/-- The MD5 of a firmware without any bytes. -/
def md5OfNothing : List UInt8 := ascii "d41d8cd98f00b204e9800998ecf8427e"

/-- A second check of the firmware the first one has accepted rejects it without
memory for a report, and has no outcome with it. -/
theorem secondCheck_rejects :
    (checks (fetchedOf iotOtaInit md5OfNothing []) [true, false]).map
        (List.map Prod.fst) = some [some true, some false] ∧
      (checks (fetchedOf iotOtaInit md5OfNothing []) [true, true]).isNone ∧
      ¬∀ (ota : OtaStruct) (md5sum : List UInt8) (chunks : List Chunk)
        (failAllocated : List Bool),
        AllAnswer (fetchedOf ota md5sum chunks)
            (decide (md5sum = md5Hex (chunks.map Chunk.bytes).flatten))
            failAllocated ∧
          AllKeep (fetchedOf ota md5sum chunks) failAllocated := by
  have outcome :
      (checks (fetchedOf iotOtaInit md5OfNothing []) [true, false]).map
        (List.map Prod.fst) = some [some true, some false] := by
    decide +kernel
  refine ⟨outcome, by decide +kernel, fun all => ?_⟩
  obtain ⟨answer, results, returns, answers⟩ :
      ∃ answer, AllAnswer (fetchedOf iotOtaInit md5OfNothing []) answer
        [true, false] :=
    ⟨_, (all iotOtaInit md5OfNothing [] [true, false]).1⟩
  rw [returns, Option.map_some] at outcome
  have alike : ∀ given ∈ results.map Prod.fst, given = some answer :=
    List.forall_mem_map.mpr answers
  rw [Option.some.inj outcome] at alike
  have accepted : some true = some answer := alike _ (by simp)
  have rejected : some false = some answer := alike _ (by simp)
  rw [← accepted] at rejected
  cases rejected

end Ota
end UIoT
