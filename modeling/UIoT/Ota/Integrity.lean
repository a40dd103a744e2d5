import UIoT.Ota.Phases

/-!
# Firmware integrity

When `IOT_OTA_fw_download` reports success, and whether the bytes it has
written by then are the announced firmware.
-/

namespace UIoT
namespace Ota

section Nesting

variable {μ : Type} (callback : OtaStruct → List UInt8 → μ → Option OtaStruct)

/-- The calls of `HAL_Download_Write` that put chunks one behind the other. -/
def contiguous (offset : UInt32) :
    List (List UInt8) → List (UInt32 × List UInt8)
  | [] => []
  | bytes :: chunks =>
      (offset, bytes) ::
        contiguous (offset + UInt32.ofNat bytes.length) chunks

/-- A download that reports success has written the firmware: the chunks that
arrived in its rounds, one behind the other, as many bytes as announced and
with the announced digest. -/
def Intact (ota : OtaStruct) (env : Download μ) (result : DownloadResult) :
    Prop :=
  result.ret = .successRet →
    ∃ chunks : List (List UInt8),
      ((env.turns.take chunks.length).map fun turn =>
        turn.arrival.map Prod.snd) = chunks.map some ∧
      result.writes = contiguous 0 chunks ∧
      chunks.flatten.length = ota.sizeFile.toNat ∧
      ota.md5sum = some (Md5.md5Hex chunks.flatten)

/-- The rounds lead out of the loop in the regular way: the chunks that arrive
on the way, and the handle at the end of it. -/
inductive Departs : OtaStruct → List (Turn μ) → List (List UInt8) →
    OtaStruct → Prop
  /-- The last round, whose messages leave the finished download alone. -/
  | last {ota fetched after : OtaStruct} {turn : Turn μ}
      {turns : List (Turn μ)} {stumbled : Bool} {bytes : List UInt8} :
      turn.arrival = some (stumbled, bytes) →
      LastRound ota.content stumbled bytes →
      turn.written = true →
      iotOtaFetchYield ota turn = some (some bytes, fetched) →
      iotOtaYield callback fetched turn.messages = some after →
      after.state = .fetched →
      Departs ota (turn :: turns) [bytes] after
  /-- A round before it, whose messages let the download go on. -/
  | next {ota fetched middle after : OtaStruct} {turn : Turn μ}
      {turns : List (Turn μ)} {stumbled : Bool} {bytes : List UInt8}
      {chunks : List (List UInt8)} :
      turn.arrival = some (stumbled, bytes) →
      ¬LastRound ota.content stumbled bytes →
      turn.written = true →
      iotOtaFetchYield ota turn = some (some bytes, fetched) →
      iotOtaYield callback fetched turn.messages = some middle →
      middle.state = .fetching →
      Departs middle turns chunks after →
      Departs ota (turn :: turns) (bytes :: chunks) after

/-- The chunks are as many bytes as announced, up to `2 ^ 32`, and those whose
digest matches in the end, of a firmware with a version, are the announced
firmware. -/
structure Complete (ota : OtaStruct) (env : Download μ)
    (chunks : List (List UInt8)) (after : OtaStruct) : Prop where
  length : UInt32.ofNat chunks.flatten.length = ota.sizeFile
  genuine :
    env.downloadEnd = true →
    after.version.isSome →
    after.md5sum = some (Md5.utilsMd5FinishHb2hex
      (chunks.foldl Md5.utilsMd5Update ota.md5)).1 →
    chunks.flatten.length = ota.sizeFile.toNat ∧
      ota.md5sum = some (Md5.md5Hex chunks.flatten)

/-- Where the loop is left in the regular way, it is with all of the
firmware. -/
def DepartsComplete (ota : OtaStruct) (env : Download μ) : Prop :=
  env.downloadInit = true → env.bufferAllocated = true →
  ota.state = .fetching →
    ∀ chunks after, Departs callback ota env.turns chunks after →
      Complete ota env chunks after

variable {callback}

/-! ## Leaving the loop -/

/-- What was written tells the chunks apart. -/
theorem contiguous_injective {offset : UInt32}
    {first second : List (List UInt8)}
    (same : contiguous offset first = contiguous offset second) :
    first = second := by
  induction first generalizing offset second with
  | nil =>
      cases second with
      | nil => rfl
      | cons => cases same
  | cons bytes chunks inductionHypothesis =>
      cases second with
      | nil => cases same
      | cons other others =>
          rw [contiguous, contiguous, List.cons.injEq] at same
          obtain ⟨head, tail⟩ := same
          cases (Prod.mk.inj head).2
          rw [inductionHypothesis tail]

/-- What a round receives arrives in it. -/
theorem arrival_of_received {ota fetched : OtaStruct}
    (fetching : ota.state = .fetching) {turn : Turn μ} {bytes : List UInt8}
    (received : iotOtaFetchYield ota turn = some (some bytes, fetched)) :
    ∃ stumbled, turn.arrival = some (stumbled, bytes) := by
  have outcome := iotOtaFetchYield_eq fetching received
  cases arrives : turn.arrival with
  | none =>
      rw [arrives] at outcome
      cases outcome
  | some arrival =>
      obtain ⟨stumbled, arrived⟩ := arrival
      rw [arrives] at outcome
      obtain rfl := Option.some.inj outcome.1
      exact ⟨stumbled, rfl⟩

/-- One round of the loop that leaves the loop or goes on. -/
theorem round_cases (keeps : Keeps callback) {ota fetched after : OtaStruct}
    (fetching : ota.state = .fetching) {turn : Turn μ} {stumbled : Bool}
    {bytes : List UInt8} (arrives : turn.arrival = some (stumbled, bytes))
    (received : iotOtaFetchYield ota turn = some (some bytes, fetched))
    (handled : iotOtaYield callback fetched turn.messages = some after) :
    Settled after ∨
      LastRound ota.content stumbled bytes ∧ after.state = .fetched ∧
        after.md5 = Md5.utilsMd5Update ota.md5 bytes ∨
      ¬LastRound ota.content stumbled bytes ∧ after.state = .fetching ∧
        after.content = ota.content.arrived bytes := by
  have outcome := iotOtaFetchYield_eq fetching received
  rw [arrives] at outcome
  obtain ⟨-, content, state⟩ := outcome
  have passes := iotOtaYield_passes keeps handled
  cases passes with
  | settled ended => exact .inl ended
  | kept sameState size md5 sameContent =>
      by_cases last : LastRound ota.content stumbled bytes
      · rw [if_pos last] at state
        refine .inr (.inl ⟨last, sameState.trans state, md5.trans ?_⟩)
        exact congrArg Content.md5 content
      · rw [if_neg last] at state
        exact .inr (.inr ⟨last, sameState.trans state,
          (sameContent state).trans content⟩)

/-- A handle that is not fetching does not finish a download. -/
theorem downloadLoop_idle {transfer after : Transfer} {turns : List (Turn μ)}
    (idle : transfer.ota.state ≠ .fetching) :
    downloadLoop callback transfer turns ≠ some (.finished, after) := by
  intro finished
  cases turns with
  | nil => cases finished
  | cons turn turns =>
      unfold downloadLoop iotOtaFetchYield at finished
      rw [if_pos idle] at finished
      cases finished

/-- A round whose bytes are received and written. -/
theorem downloadLoop_round {ota fetched : OtaStruct} (totalLength : UInt32)
    (writes : List (UInt32 × List UInt8)) {turn : Turn μ}
    (turns : List (Turn μ)) {bytes : List UInt8}
    (received : iotOtaFetchYield ota turn = some (some bytes, fetched))
    (written : turn.written = true) :
    downloadLoop callback ⟨ota, totalLength, writes⟩ (turn :: turns) =
      (iotOtaYield callback fetched turn.messages).bind fun after =>
        let transfer : Transfer :=
          ⟨after, totalLength + UInt32.ofNat bytes.length,
            writes ++ [(totalLength, bytes)]⟩
        if after.state = .fetched then some (.finished, transfer)
        else downloadLoop callback transfer turns := by
  rw [downloadLoop, received]
  dsimp only
  rw [if_pos written]
  cases iotOtaYield callback fetched turn.messages <;> rfl

/-- A loop that finishes has received and written the bytes of its first
round. -/
theorem downloadLoop_finished {ota : OtaStruct} {totalLength : UInt32}
    {writes : List (UInt32 × List UInt8)} {turn : Turn μ}
    {turns : List (Turn μ)} {after : Transfer}
    (finished : downloadLoop callback ⟨ota, totalLength, writes⟩
      (turn :: turns) = some (.finished, after)) :
    ∃ bytes fetched, iotOtaFetchYield ota turn = some (some bytes, fetched) ∧
      turn.written = true := by
  unfold downloadLoop at finished
  dsimp only at finished
  split at finished
  · cases finished
  · cases finished
  · rename_i bytes fetched received
    split at finished
    · rename_i written
      exact ⟨bytes, fetched, received, written⟩
    · cases finished

/-- The loop is left in the regular way only along rounds that depart. -/
theorem downloadLoop_departs (keeps : Keeps callback) {ota : OtaStruct}
    {totalLength : UInt32} {writes : List (UInt32 × List UInt8)}
    {turns : List (Turn μ)} {after : Transfer}
    (fetching : ota.state = .fetching)
    (finished : downloadLoop callback ⟨ota, totalLength, writes⟩ turns =
      some (.finished, after)) :
    ∃ chunks, Departs callback ota turns chunks after.ota ∧
      after.totalLength =
        totalLength + UInt32.ofNat chunks.flatten.length ∧
      after.writes = writes ++ contiguous totalLength chunks := by
  induction turns generalizing ota totalLength writes with
  | nil => cases finished
  | cons turn turns inductionHypothesis =>
      obtain ⟨bytes, fetched, received, written⟩ :=
        downloadLoop_finished finished
      obtain ⟨stumbled, arrives⟩ := arrival_of_received fetching received
      rw [downloadLoop_round totalLength writes turns received written]
        at finished
      obtain ⟨middle, handled, rest⟩ := Option.bind_eq_some_iff.mp finished
      have outcome := round_cases keeps fetching arrives received handled
      dsimp only at rest
      split at rest
      · rename_i left
        cases rest
        rcases outcome with settled | ⟨last, -, -⟩ | ⟨-, goesOn, -⟩
        · exact absurd settled (by simp [Settled, left])
        · exact ⟨[bytes], .last arrives last written received handled left,
            by simp, rfl⟩
        · exact absurd (goesOn.symm.trans left) (by decide)
      · rename_i notFetched
        rcases outcome with settled | ⟨-, left, -⟩ | ⟨more, goesOn, -⟩
        · have idle : middle.state ≠ .fetching := by
            rcases settled with state | state <;> rw [state] <;> decide
          exact absurd rest (downloadLoop_idle idle)
        · exact absurd left notFetched
        · obtain ⟨chunks, departs, total, offsets⟩ :=
            inductionHypothesis goesOn rest
          refine ⟨bytes :: chunks,
            .next arrives more written received handled goesOn departs, ?_, ?_⟩
          · rw [total, List.flatten_cons, List.length_append,
              UInt32.ofNat_add, UInt32.add_assoc]
          · rw [offsets, List.append_assoc]
            rfl

/-- Along rounds that depart the loop is left in the regular way. -/
theorem Departs.finishes {ota after : OtaStruct} {turns : List (Turn μ)}
    {chunks : List (List UInt8)}
    (departs : Departs callback ota turns chunks after)
    (totalLength : UInt32) (writes : List (UInt32 × List UInt8)) :
    downloadLoop callback ⟨ota, totalLength, writes⟩ turns =
      some (.finished,
        ⟨after, totalLength + UInt32.ofNat chunks.flatten.length,
          writes ++ contiguous totalLength chunks⟩) := by
  induction departs generalizing totalLength writes with
  | last arrives last written received handled left =>
      rw [downloadLoop_round _ _ _ received written, handled,
        Option.bind_some]
      dsimp only
      rw [if_pos left]
      simp [contiguous]
  | next arrives more written received handled goesOn departs
      inductionHypothesis =>
      have notFetched :=
        goesOn.trans_ne (by decide : OtaState.fetching ≠ .fetched)
      rw [downloadLoop_round _ _ _ received written, handled,
        Option.bind_some]
      dsimp only
      rw [if_neg notFetched, inductionHypothesis, List.flatten_cons,
        List.length_append, UInt32.ofNat_add, UInt32.add_assoc,
        List.append_assoc]
      rfl

/-! ## What the loop leaves behind -/

theorem Departs.fetched {ota after : OtaStruct} {turns : List (Turn μ)}
    {chunks : List (List UInt8)}
    (departs : Departs callback ota turns chunks after) :
    after.state = .fetched := by
  induction departs with
  | last _ _ _ _ _ left => exact left
  | next _ _ _ _ _ _ _ left => exact left

/-- The chunks are what arrives in as many rounds. -/
theorem Departs.arrivals {ota after : OtaStruct} {turns : List (Turn μ)}
    {chunks : List (List UInt8)}
    (departs : Departs callback ota turns chunks after) :
    ((turns.take chunks.length).map fun turn =>
      turn.arrival.map Prod.snd) = chunks.map some := by
  induction departs with
  | last arrives => simp [arrives]
  | next arrives _ _ _ _ _ _ inductionHypothesis =>
      simp [arrives, inductionHypothesis]

/-- The digest has been fed the chunks in their order. -/
theorem Departs.digest (keeps : Keeps callback) {ota after : OtaStruct}
    {turns : List (Turn μ)} {chunks : List (List UInt8)}
    (departs : Departs callback ota turns chunks after)
    (fetching : ota.state = .fetching) :
    after.md5 = chunks.foldl Md5.utilsMd5Update ota.md5 := by
  induction departs with
  | last arrives last written received handled left =>
      rcases round_cases keeps fetching arrives received handled with
        settled | ⟨-, -, md5⟩ | ⟨-, goesOn, -⟩
      · exact absurd settled (by simp [Settled, left])
      · exact md5
      · exact absurd (goesOn.symm.trans left) (by decide)
  | next arrives more written received handled goesOn departs
      inductionHypothesis =>
      rcases round_cases keeps fetching arrives received handled with
        settled | ⟨last, -, -⟩ | ⟨-, -, content⟩
      · exact absurd settled (by simp [Settled, goesOn])
      · exact absurd last more
      · rw [inductionHypothesis goesOn, List.foldl_cons]
        congr 1
        exact congrArg Content.md5 content

/-! ## Reporting success -/

/-- A digest that matches is told so, and left finished. -/
theorem ioctlCheckFirmware_valid {ota : OtaStruct} {failAllocated : Bool}
    (fetched : ota.state = .fetched)
    (valid : ota.md5sum = some (Md5.utilsMd5FinishHb2hex ota.md5).1) :
    ioctlCheckFirmware ota failAllocated =
      some (some true,
        { ota with md5 := (Md5.utilsMd5FinishHb2hex ota.md5).2 }) := by
  unfold ioctlCheckFirmware
  rw [if_neg (not_not_intro fetched)]
  dsimp only
  rw [valid, Option.bind_some, if_pos rfl]

/-- Where another digest is told, there is an error. -/
theorem ioctlCheckFirmware_invalid {ota after : OtaStruct}
    {failAllocated : Bool} {stored : Option Bool}
    (fetched : ota.state = .fetched)
    (invalid : ota.md5sum ≠ some (Md5.utilsMd5FinishHb2hex ota.md5).1)
    (checked : ioctlCheckFirmware ota failAllocated = some (stored, after)) :
    stored = some false ∧ after.err ≠ .successRet := by
  unfold ioctlCheckFirmware at checked
  rw [if_neg (not_not_intro fetched)] at checked
  obtain ⟨md5sum, announced, compared⟩ := Option.bind_eq_some_iff.mp checked
  split at compared
  · rename_i same
    exact absurd (announced.trans (congrArg some same)) invalid
  · obtain ⟨reported, failed, same⟩ := Option.map_eq_some_iff.mp compared
    obtain ⟨err, error, left⟩ := iotOtaReportFail_eq failed
    obtain ⟨rfl, rfl⟩ := Prod.mk.inj same
    rw [left]
    exact ⟨rfl, error⟩

/-- Of a finished download the version is stored that was announced. -/
theorem ioctlVersion_fetched {ota : OtaStruct}
    (fetched : ota.state = .fetched) :
    ioctlVersion ota =
      ota.version.map fun version => (some (version.take 32), ota) := by
  unfold ioctlVersion
  rw [if_neg (by simp [beforeFetching, fetched])]

/-- A finished download is reported a success, unless it has the announced
length and fails its check or at its end. -/
theorem downloadFinish_success {ota : OtaStruct}
    (fetched : ota.state = .fetched) (totalLength fileSize : UInt32)
    (env : Download μ) :
    (∃ after, downloadFinish ota totalLength fileSize env =
        some (.successRet, after)) ↔
      (totalLength = fileSize →
        ota.md5sum = some (Md5.utilsMd5FinishHb2hex ota.md5).1 ∧
          ota.version.isSome ∧ env.downloadEnd = true) := by
  unfold downloadFinish
  by_cases length : totalLength = fileSize
  case neg =>
    rw [if_neg length]
    exact ⟨fun _ equal => absurd equal length, fun _ => ⟨ota, rfl⟩⟩
  rw [if_pos length]
  by_cases valid : ota.md5sum = some (Md5.utilsMd5FinishHb2hex ota.md5).1
  · rw [ioctlCheckFirmware_valid fetched valid, Option.bind_some]
    dsimp only
    rw [Option.getD_some, if_pos rfl, ioctlVersion_fetched (by exact fetched)]
    cases ota.version <;> cases env.downloadEnd <;> simp [length, valid]
  · refine iff_of_false ?_ fun success => valid (success length).1
    rintro ⟨after, success⟩
    obtain ⟨⟨stored, checked⟩, check, rest⟩ :=
      Option.bind_eq_some_iff.mp success
    obtain ⟨rfl, error⟩ := ioctlCheckFirmware_invalid fetched valid check
    dsimp only at rest
    rw [Option.getD_some, if_neg (by decide)] at rest
    exact error (Prod.mk.inj (Option.some.inj rest)).1

/-- Leaving the loop otherwise is never a success. -/
theorem downloadLoop_failed {transfer after : Transfer} {turns : List (Turn μ)}
    {ret : IoTError}
    (failed : downloadLoop callback transfer turns =
      some (.failed ret, after)) : ret ≠ .successRet := by
  induction turns generalizing transfer with
  | nil => cases failed
  | cons turn turns inductionHypothesis =>
      unfold downloadLoop at failed
      split at failed
      · cases failed
      · cases failed
        decide
      · split at failed
        · split at failed
          · cases failed
          · dsimp only at failed
            split at failed
            · cases failed
            · exact inductionHypothesis failed
        · cases failed
          decide

/-- A download whose rounds depart returns what its end makes of them. -/
theorem iotOtaFwDownload_departs {ota after : OtaStruct} {env : Download μ}
    {chunks : List (List UInt8)} (opened : env.downloadInit = true)
    (allocated : env.bufferAllocated = true)
    (fetching : ota.state = .fetching)
    (departs : Departs callback ota env.turns chunks after) :
    iotOtaFwDownload callback ota env =
      (downloadFinish after (UInt32.ofNat chunks.flatten.length) ota.sizeFile
        env).map fun (ret, ended) =>
          ⟨ret, iotOtaClear ended, contiguous 0 chunks⟩ := by
  have known : ¬beforeFetching ota := by
    simp [beforeFetching, fetching]
  have loop := departs.finishes 0 []
  rw [UInt32.zero_add, List.nil_append] at loop
  unfold iotOtaFwDownload ioctlFileSize
  rw [if_neg known]
  dsimp only
  rw [opened, allocated, loop]
  rfl

/-- A download that reports success has departed from its loop. -/
theorem iotOtaFwDownload_success (keeps : Keeps callback) {ota : OtaStruct}
    {env : Download μ} {result : DownloadResult}
    (returns : iotOtaFwDownload callback ota env = some result)
    (success : result.ret = .successRet) :
    env.downloadInit = true ∧ env.bufferAllocated = true ∧
      ota.state = .fetching ∧
      ∃ chunks after, Departs callback ota env.turns chunks after := by
  unfold iotOtaFwDownload at returns
  dsimp only at returns
  split at returns
  · rename_i ready
    obtain ⟨opened, allocated⟩ := Bool.and_eq_true_iff.mp ready
    have state : (ioctlFileSize ota).2.state = ota.state := by
      unfold ioctlFileSize
      split <;> rfl
    split at returns
    · cases returns
    · rename_i ret transfer left
      cases returns
      exact absurd success (downloadLoop_failed left)
    · rename_i transfer left
      clear returns
      by_cases fetching : ota.state = .fetching
      · have known : ¬beforeFetching ota := by
          simp [beforeFetching, fetching]
        have same : (ioctlFileSize ota).2 = ota := by
          unfold ioctlFileSize
          rw [if_neg known]
        rw [same] at left
        obtain ⟨chunks, departs, -⟩ := downloadLoop_departs keeps fetching left
        exact ⟨opened, allocated, fetching, chunks, _, departs⟩
      · have idle : (ioctlFileSize ota).2.state ≠ .fetching := by
          rw [state]
          exact fetching
        exact absurd left (downloadLoop_idle idle)
  · cases returns
    cases success

/-- A download reports success for nothing but the announced firmware exactly
where its loop is left in the regular way with all of the firmware only. -/
theorem intact_iff_departsComplete (keeps : Keeps callback) (ota : OtaStruct)
    (env : Download μ) :
    (∀ result, iotOtaFwDownload callback ota env = some result →
      Intact ota env result) ↔ DepartsComplete callback ota env := by
  constructor
  · intro intact opened allocated fetching chunks after departs
    have returns :=
      iotOtaFwDownload_departs opened allocated fetching departs
    have succeeds := downloadFinish_success departs.fetched
      (UInt32.ofNat chunks.flatten.length) ota.sizeFile env
    have firmware (success : ∃ ended, downloadFinish after
        (UInt32.ofNat chunks.flatten.length) ota.sizeFile env =
          some (.successRet, ended)) :
        chunks.flatten.length = ota.sizeFile.toNat ∧
          ota.md5sum = some (Md5.md5Hex chunks.flatten) := by
      obtain ⟨ended, finished⟩ := success
      rw [finished] at returns
      obtain ⟨others, -, writes, length, digest⟩ := intact _ returns rfl
      cases contiguous_injective writes
      exact ⟨length, digest⟩
    have length : UInt32.ofNat chunks.flatten.length = ota.sizeFile := by
      by_contra differs
      have announced :=
        firmware (succeeds.mpr fun equal => absurd equal differs)
      rw [announced.1, UInt32.ofNat_toNat] at differs
      exact differs rfl
    refine ⟨length, ?_⟩
    intro ended version matched
    rw [← departs.digest keeps fetching] at matched
    exact firmware (succeeds.mpr fun _ => ⟨matched, version, ended⟩)
  · intro complete result returns success
    obtain ⟨opened, allocated, fetching, chunks, after, departs⟩ :=
      iotOtaFwDownload_success keeps returns success
    have regular := complete opened allocated fetching chunks after departs
    rw [iotOtaFwDownload_departs opened allocated fetching departs] at returns
    obtain ⟨⟨ret, ended⟩, finished, rfl⟩ := Option.map_eq_some_iff.mp returns
    obtain rfl : ret = .successRet := success
    have passed := (downloadFinish_success departs.fetched _ _ env).mp
      ⟨ended, finished⟩ regular.length
    rw [departs.digest keeps fetching] at passed
    have firmware := regular.genuine passed.2.2 passed.2.1 passed.1
    exact ⟨chunks, departs.arrivals, rfl, firmware.1, firmware.2⟩

end Nesting

/-- `IOT_OTA_fw_download` reports success for nothing but the announced
firmware exactly where its loop is left in the regular way with all of the
firmware only. -/
theorem iotOtaFwDownload_intact_iff (depth : Nat) (ota : OtaStruct)
    (env : Download (Handling depth)) :
    (∀ result, iotOtaFwDownload (otaCallback depth) ota env = some result →
      Intact ota env result) ↔
      DepartsComplete (otaCallback depth) ota env :=
  intact_iff_departsComplete (otaCallback_keeps depth) ota env

/-! ## A download that goes too far -/

/-- A handle that has connected for a firmware of one byte. -/
def announcedOne : OtaStruct :=
  { iotOtaInit with
    state := .fetching
    sizeFile := 1
    version := some (ascii "1")
    md5sum := some (Md5.md5Hex [1])
    chFetch := some 0
    channels.opened := 1 }

/-- A round that receives two bytes at once. -/
def overshootingTurn : Turn (Handling 0) where
  attempts _ := ⟨.received [1, 2] (by decide), true, true⟩
  firstReport := .sent
  hasExpired := false
  progressReport := .sent
  written := true
  messages := []

/-- A download in which nothing else happens. -/
def overshootingDownload : Download (Handling 0) where
  downloadInit := true
  bufferAllocated := true
  turns := [overshootingTurn]
  firmwareValid := false
  failAllocated := true
  successReport := .sent
  downloadEnd := true

/-- Two bytes written for a firmware of one are reported as a success. -/
theorem iotOtaFwDownload_overshoots :
    (iotOtaFwDownload (otaCallback 0) announcedOne overshootingDownload).map
        (fun result => (result.ret, result.writes)) =
      some (.successRet, [(0, [1, 2])]) ∧
    ¬∀ result,
      iotOtaFwDownload (otaCallback 0) announcedOne overshootingDownload =
        some result →
      Intact announcedOne overshootingDownload result := by
  have outcome :
      (iotOtaFwDownload (otaCallback 0) announcedOne overshootingDownload).map
          (fun result => (result.ret, result.writes)) =
        some (.successRet, [(0, [1, 2])]) := rfl
  refine ⟨outcome, ?_⟩
  intro intact
  obtain ⟨result, returns, values⟩ := Option.map_eq_some_iff.mp outcome
  obtain ⟨success, written⟩ := Prod.mk.inj values
  obtain ⟨chunks, -, writes, length, -⟩ := intact result returns success
  have single : contiguous 0 chunks = contiguous 0 [[1, 2]] :=
    writes.symm.trans written
  cases contiguous_injective single
  exact absurd length (by decide)

end Ota
end UIoT
