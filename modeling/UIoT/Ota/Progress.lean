import UIoT.Library.Machine
import UIoT.Ota.Phases

/-!
# The progress of a download

`IOT_OTA_FetchYield` computes the progress in percent from two numbers of 32
bits: the size a message has announced, and the bytes counted so far.  It
multiplies before it divides.
-/

namespace UIoT
namespace Ota

/-! ## Fetching -/

variable {μ : Type}

/-- A call of `IOT_OTA_FetchYield` with a buffer of any size, of which its first
call of `ofc_fetch` fills a part, and its surroundings. -/
structure Fetch (μ : Type) where
  bytes : List UInt8
  positive : bytes ≠ []
  short : bytes.length < 2 ^ 31
  turn : Turn μ

/-- `IOT_OTA_FetchYield` -/
def fetchYield (ota : OtaStruct) (fetch : Fetch μ) : OtaStruct :=
  if ota.state ≠ .fetching then
    { ota with err := .errOtaInvalidState }
  else
    let ota := readChFetch ota
    let ota :=
      if ota.sizeFetched = 0 then
        iotOtaReportProgress ota 0 fetch.turn.firstReport
      else ota
    fetchArrived ota fetch.turn fetch.bytes

/-- The handle at the beginning of a download of an announced size. -/
def beginFetching (ota : OtaStruct) (sizeFile : UInt32) : OtaStruct :=
  { ota with sizeFetched := 0, sizeFile, state := .fetching }

/-- This is `IOT_OTA_FetchYield` in the download. -/
theorem iotOtaFetchYield_received (ota : OtaStruct) (fetch : Fetch μ)
    (fits : fetch.bytes.length ≤ httpOtaBuffLen)
    (received : (fetch.turn.attempts 0).result = .received fetch.bytes fits)
    (fetching : ota.state = .fetching) :
    iotOtaFetchYield ota fetch.turn =
      some (some fetch.bytes, fetchYield ota fetch) := by
  have attempts : List.ofFn fetch.turn.attempts =
      fetch.turn.attempts 0 :: List.ofFn fun i : Fin 4 =>
        fetch.turn.attempts i.succ := List.ofFn_succ
  have ready : ¬ota.state ≠ .fetching := not_not_intro fetching
  unfold iotOtaFetchYield fetchYield
  rw [if_neg ready, if_neg ready, attempts, fetchRetry]
  dsimp only
  rw [received]
  dsimp only
  rw [Option.map_some, fetchEnded, if_neg fetch.positive]

/-! ## Progress -/

/-- The bytes counted after the call, as a number without bounds. -/
def Fetch.total (fetch : Fetch μ) (ota : OtaStruct) : Nat :=
  ota.sizeFetched.toNat + fetch.bytes.length

/-- What the call passes to `IOT_OTA_ReportProgress`. -/
def Fetch.reports (fetch : Fetch μ) (ota : OtaStruct) : List UInt32 :=
  (fetchYield ota fetch).reported.drop ota.reported.length

/-- The call computes the progress without a division by zero and without a
wrap, and reports percentages only. -/
structure ComputesProgress (ota : OtaStruct) (fetch : Fetch μ) : Prop where
  divides : ota.sizeFile ≠ 0
  counts : (fetchYield ota fetch).sizeFetched.toNat = fetch.total ota
  scales : ((fetchYield ota fetch).sizeFetched * 100).toNat =
    100 * fetch.total ota
  floors : fetch.total ota ≤ ota.sizeFile.toNat →
    (percentOf (fetchYield ota fetch).sizeFetched ota.sizeFile).toNat =
      100 * fetch.total ota / ota.sizeFile.toNat
  grows : percentOf ota.sizeFetched ota.sizeFile ≤
    percentOf (fetchYield ota fetch).sizeFetched ota.sizeFile
  accepts : ∀ progress ∈ fetch.reports ota, progress ≤ 100

/-- A call that fetches computes the progress. -/
def KeepsProgress (ota : OtaStruct) (fetch : Fetch μ) : Prop :=
  ota.state = .fetching → ComputesProgress ota fetch

/-- The announced size is positive, a hundred times the bytes fetched fit into
32 bits, and where the report timer has expired they are less than a hundredth
above the announced size. -/
def InRange (ota : OtaStruct) (fetch : Fetch μ) : Prop :=
  ota.state = .fetching →
    ota.sizeFile ≠ 0 ∧ 100 * fetch.total ota < 2 ^ 32 ∧
      (fetch.turn.hasExpired = true →
        100 * fetch.total ota < 101 * ota.sizeFile.toNat)

/-! ## One call -/

theorem report_reported (ota : OtaStruct) (outcome : ReportOutcome) :
    (report ota outcome).reported = ota.reported := by
  cases outcome <;> rfl

theorem iotOtaReportProgress_reported (ota : OtaStruct) (progress : UInt32)
    (outcome : ReportOutcome) :
    (iotOtaReportProgress ota progress outcome).reported =
      ota.reported ++ [progress] := by
  unfold iotOtaReportProgress
  dsimp only
  split
  · rfl
  · split
    · rfl
    · rw [report_reported]

theorem readChFetch_reported (ota : OtaStruct) :
    (readChFetch ota).reported = ota.reported := by
  unfold readChFetch
  split
  · rfl
  · split <;> rfl

/-- The percentage is reported at the end of the download or when the timer has
expired. -/
theorem fetchArrived_reported (ota : OtaStruct) (turn : Turn μ)
    {bytes : List UInt8} (positive : bytes ≠ [])
    (short : bytes.length < 2 ^ 31) :
    let percent :=
      percentOf (ota.sizeFetched + UInt32.ofNat bytes.length) ota.sizeFile
    (fetchArrived ota turn bytes).reported =
      ota.reported ++
        if percent = 100 ∨ turn.hasExpired = true then [percent] else [] := by
  intro percent
  have some : (UInt32.ofNat bytes.length) > 0 := by
    have length := List.length_pos_iff.mpr positive
    have small : bytes.length < 2 ^ 32 := short.trans (by decide)
    rw [gt_iff_lt, UInt32.lt_iff_toNat_lt, UInt32.toNat_ofNat_of_lt' small]
    exact length
  have reports : (fetchArrived ota turn bytes).reported =
      (reportFetched (countFetched ota bytes) turn).reported := by
    unfold fetchArrived
    dsimp only
    split <;> rfl
  rw [reports]
  by_cases reported : percent = 100 ∨ turn.hasExpired = true
  · have due : percent = 100 ∨
        (UInt32.ofNat bytes.length > 0 ∧ turn.hasExpired = true) :=
      reported.imp_right fun expired => ⟨some, expired⟩
    have sends : reportFetched (countFetched ota bytes) turn =
        iotOtaReportProgress (countFetched ota bytes) percent
          turn.progressReport := if_pos due
    rw [sends, iotOtaReportProgress_reported, if_pos reported]
    rfl
  · have early : ¬(percent = 100 ∨
        (UInt32.ofNat bytes.length > 0 ∧ turn.hasExpired = true)) :=
      fun due => reported (due.imp_right And.right)
    have stays : reportFetched (countFetched ota bytes) turn =
        countFetched ota bytes := if_neg early
    rw [stays, if_neg reported, List.append_nil]
    rfl

section Call

variable {ota : OtaStruct} {fetch : Fetch μ}

/-- What a call makes of the counter and what it reports: a zero if nothing was
fetched before, and the percentage where it is due. -/
theorem fetchYield_eq (fetch : Fetch μ) (fetching : ota.state = .fetching) :
    let percent := percentOf
      (ota.sizeFetched + UInt32.ofNat fetch.bytes.length) ota.sizeFile
    (fetchYield ota fetch).sizeFetched =
        ota.sizeFetched + UInt32.ofNat fetch.bytes.length ∧
      (fetchYield ota fetch).sizeFile = ota.sizeFile ∧
      fetch.reports ota =
        (if ota.sizeFetched = 0 then [0] else []) ++
          if percent = 100 ∨ fetch.turn.hasExpired = true then [percent]
          else [] := by
  intro percent
  have ready : ¬ota.state ≠ .fetching := not_not_intro fetching
  let first : OtaStruct :=
    if (readChFetch ota).sizeFetched = 0 then
      iotOtaReportProgress (readChFetch ota) 0 fetch.turn.firstReport
    else readChFetch ota
  have yields : fetchYield ota fetch =
      fetchArrived first fetch.turn fetch.bytes := if_neg ready
  have read := readChFetch_content ota
  have content : first.content = ota.content := by
    simp only [first]
    split
    · rw [iotOtaReportProgress_content, read]
    · exact read
  have sizeFetched : first.sizeFetched = ota.sizeFetched :=
    congrArg Content.sizeFetched content
  have sizeFile : first.sizeFile = ota.sizeFile :=
    congrArg Content.sizeFile content
  have reported : first.reported = ota.reported ++
      if ota.sizeFetched = 0 then [0] else [] := by
    have same : (readChFetch ota).sizeFetched = ota.sizeFetched :=
      congrArg Content.sizeFetched read
    simp only [first]
    rw [same]
    split
    · rw [iotOtaReportProgress_reported, readChFetch_reported]
    · rw [readChFetch_reported, List.append_nil]
  have arrived := fetchArrived_content first fetch.turn fetch.bytes
  refine ⟨?_, ?_, ?_⟩
  · rw [yields, ← sizeFetched]
    exact congrArg Content.sizeFetched arrived
  · rw [yields, ← sizeFile]
    exact congrArg Content.sizeFile arrived
  · unfold Fetch.reports
    rw [yields, fetchArrived_reported _ _ fetch.positive fetch.short,
      sizeFetched, sizeFile, reported, List.append_assoc,
      List.drop_left]

/-- A call that neither divides by zero nor wraps computes the percentage of
the bytes counted. -/
theorem percentOf_fetched (small : 100 * fetch.total ota < 2 ^ 32) :
    (ota.sizeFetched + UInt32.ofNat fetch.bytes.length).toNat =
        fetch.total ota ∧
      ((ota.sizeFetched + UInt32.ofNat fetch.bytes.length) * 100).toNat =
        100 * fetch.total ota ∧
      (percentOf (ota.sizeFetched + UInt32.ofNat fetch.bytes.length)
        ota.sizeFile).toNat =
          100 * fetch.total ota / ota.sizeFile.toNat := by
  have length : (UInt32.ofNat fetch.bytes.length).toNat = fetch.bytes.length :=
    UInt32.toNat_ofNat_of_lt' (fetch.short.trans (by decide))
  have counts : (ota.sizeFetched + UInt32.ofNat fetch.bytes.length).toNat =
      fetch.total ota := by
    rw [UInt32.toNat_add, length]
    exact Nat.mod_eq_of_lt (by unfold Fetch.total at small; omega)
  have scales :
      ((ota.sizeFetched + UInt32.ofNat fetch.bytes.length) * 100).toNat =
        100 * fetch.total ota := by
    rw [UInt32.toNat_mul, counts, Nat.mul_comm]
    exact Nat.mod_eq_of_lt small
  refine ⟨counts, scales, ?_⟩
  unfold percentOf
  rw [UInt32.toNat_div, scales]

/-- A call computes the progress exactly when it is in range. -/
theorem computesProgress_iff (fetching : ota.state = .fetching) :
    ComputesProgress ota fetch ↔
      ota.sizeFile ≠ 0 ∧ 100 * fetch.total ota < 2 ^ 32 ∧
        (fetch.turn.hasExpired = true →
          100 * fetch.total ota < 101 * ota.sizeFile.toNat) := by
  obtain ⟨sizeFetched, -, reports⟩ := fetchYield_eq fetch fetching
  constructor
  · intro computes
    have scales := computes.scales
    have accepts := computes.accepts
    rw [sizeFetched] at scales
    have small : 100 * fetch.total ota < 2 ^ 32 := by
      rw [← scales]
      exact UInt32.toNat_lt _
    have positive : 0 < ota.sizeFile.toNat :=
      Nat.pos_of_ne_zero fun zero =>
        computes.divides (UInt32.toNat_inj.mp zero)
    refine ⟨computes.divides, small, fun expired => ?_⟩
    obtain ⟨-, -, percent⟩ := percentOf_fetched small
    rw [reports, if_pos (Or.inr expired)] at accepts
    have accepted := UInt32.le_iff_toNat_le.mp
      (accepts _ (List.mem_append_right _ (List.mem_singleton_self _)))
    rw [percent] at accepted
    have below : 100 * fetch.total ota / ota.sizeFile.toNat < 101 :=
      Nat.lt_succ_of_le accepted
    exact (Nat.div_lt_iff_lt_mul positive).mp below
  · rintro ⟨divides, small, overshoot⟩
    obtain ⟨counts, scales, percent⟩ := percentOf_fetched small
    have positive : 0 < ota.sizeFile.toNat :=
      Nat.pos_of_ne_zero fun zero => divides (UInt32.toNat_inj.mp zero)
    refine ⟨divides, ?_, ?_, fun _ => ?_, ?_, ?_⟩
    · rw [sizeFetched, counts]
    · rw [sizeFetched, scales]
    · rw [sizeFetched, percent]
    · have before : (percentOf ota.sizeFetched ota.sizeFile).toNat =
          100 * ota.sizeFetched.toNat / ota.sizeFile.toNat := by
        unfold percentOf
        have unscaled : ota.sizeFetched.toNat * 100 < 2 ^ 32 := by
          unfold Fetch.total at small
          omega
        have scaled : (ota.sizeFetched * 100).toNat =
            ota.sizeFetched.toNat * 100 :=
          (UInt32.toNat_mul _ _).trans (Nat.mod_eq_of_lt unscaled)
        rw [UInt32.toNat_div, scaled, Nat.mul_comm]
      rw [sizeFetched, UInt32.le_iff_toNat_le, percent, before]
      exact Nat.div_le_div_right
        (Nat.mul_le_mul_left 100 (Nat.le_add_right _ _))
    · intro progress reported
      rw [reports, List.mem_append] at reported
      rcases reported with first | due
      · split at first
        · rw [List.mem_singleton.mp first]
          decide
        · exact absurd first List.not_mem_nil
      · split at due
        · rename_i reason
          rw [List.mem_singleton.mp due]
          rcases reason with whole | expired
          · exact whole ▸ UInt32.le_refl 100
          · rw [UInt32.le_iff_toNat_le, percent]
            exact Nat.le_of_lt_succ
              ((Nat.div_lt_iff_lt_mul positive).mpr (overshoot expired))
        · exact absurd due List.not_mem_nil

end Call

/-! ## A whole download -/

/-- A download computes its progress exactly as long as its calls are in
range. -/
theorem fetchYield_progress_iff (ota : OtaStruct) (sizeFile : UInt32)
    (fetches : List (Fetch μ)) :
    Machine.Along fetchYield KeepsProgress (beginFetching ota sizeFile)
        fetches ↔
      Machine.Along fetchYield InRange (beginFetching ota sizeFile)
        fetches :=
  Machine.Along.iff_of_invariant (fun _ => True)
    (fun state fetch _ => by
      unfold KeepsProgress InRange
      exact forall_congr' computesProgress_iff)
    (fun _ _ _ _ => trivial) trivial fetches

/-- A call that fetches one byte. -/
def fetchOne : Fetch Unit where
  bytes := [0]
  positive := List.cons_ne_nil _ _
  short := by decide
  turn :=
    { attempts := fun _ => ⟨.received [0] (by decide), true, true⟩
      firstReport := .sent
      hasExpired := false
      progressReport := .sent
      written := true
      messages := [] }

/-- The first call for a firmware of an announced size of zero divides by
zero. -/
theorem announcedZero_divides :
    ¬∀ (ota : OtaStruct) (sizeFile : UInt32) (fetches : List (Fetch Unit)),
      Machine.Along fetchYield KeepsProgress (beginFetching ota sizeFile)
        fetches := by
  intro all
  have along := all iotOtaInit 0 [fetchOne]
  exact (along.1 rfl).divides rfl

end Ota
end UIoT
