import UIoT.Json.Robustness

/-!
# Reporting names and values

`json_parse_name_value` reports the members of the first bytes of a string.  It
terminates them in the caller's buffer and means to put the byte back, but
compares the length with that of the string it has cut: the byte stays zero
unless the length was that of the whole string.
-/

namespace UIoT
namespace Json

/-! ## The function -/

/-- `enum JSON_PARSE_CODE` -/
inductive JsonParseCode
  | err
  | ok
  | finish
  deriving DecidableEq, Repr

/-- `enum JSON_PARSE_RESULT` -/
inductive JsonParseResult
  | err
  | ok
  deriving DecidableEq, Repr

/-- `json_parse_cb`, which changes its data but not the buffer. -/
abbrev JsonParseCb (σ : Type) := σ → KeyValue → σ × JsonParseCode

/-- `backup_json_str_last_char` -/
def backupJsonStrLastChar (str : CharPtr) (strLen : Nat) : CharPtr × UInt8 :=
  (str.set strLen 0, str.getD strLen 0)

/-- `restore_json_str_last_char` -/
def restoreJsonStrLastChar (str : CharPtr) (strLen : Nat) (register : UInt8) :
    CharPtr :=
  str.set strLen register

/-- The test of `json_parse_name_value` in front of its callback. -/
def KeyValue.reported (keyValue : KeyValue) : Bool :=
  keyValue.keyLen ≠ 0 && keyValue.valLen ≠ 0

/-- The body of the loop over keys and values: the data it leaves and the calls
it makes. -/
def callEach {σ : Type} (pfnCB : JsonParseCb σ) :
    (data : σ) → List KeyValue → σ × List KeyValue
  | data, [] => (data, [])
  | data, keyValue :: rest =>
      if keyValue.reported then
        let (data, code) := pfnCB data keyValue
        if code = .finish then (data, [keyValue])
        else
          let (data, calls) := callEach pfnCB data rest
          (data, keyValue :: calls)
      else
        callEach pfnCB data rest

/-- What `json_parse_name_value` returns and leaves: its result, the buffer, the
callback's data, and the calls it has made. -/
structure Parsed (σ : Type) where
  ret : JsonParseResult
  buffer : Option CharPtr
  data : σ
  calls : List KeyValue

/-- `json_parse_name_value`, for a length that is not negative. -/
def jsonParseNameValue {σ : Type} (jsonStr : Option CharPtr) (strLen : Nat)
    (pfnCB : Option (JsonParseCb σ)) (data : σ) : Parsed σ :=
  match jsonStr, pfnCB with
  | some str, some pfnCB =>
      if strLen = 0 then ⟨.err, some str, data, []⟩
      else
        let (str, lastChar) :=
          if strLen ≠ (cString str).length then
            backupJsonStrLastChar str strLen
          else
            (str, 0)
        let (data, calls) :=
          callEach pfnCB data ((jsonObjectForEachKv str).map Entry.keyValue)
        let str :=
          if strLen ≠ (cString str).length then
            restoreJsonStrLastChar str strLen lastChar
          else
            str
        ⟨if calls = [] then .err else .ok, some str, data, calls⟩
  | jsonStr, _ => ⟨.err, jsonStr, data, []⟩

/-! ## Calls -/

section Calls

variable {σ : Type} (pfnCB : JsonParseCb σ)

/-- The callback ends the loop at one of the keys and values. -/
def finishes : (data : σ) → List KeyValue → Bool
  | _, [] => false
  | data, keyValue :: rest =>
      if keyValue.reported then
        let (data, code) := pfnCB data keyValue
        code = .finish || finishes data rest
      else
        finishes data rest

/-- Keys and values none of which is reported make no call. -/
theorem callEach_calls_eq_nil_iff (data : σ) (rest : List KeyValue) :
    (callEach pfnCB data rest).2 = [] ↔
      ∀ keyValue ∈ rest, keyValue.reported = false := by
  induction rest generalizing data with
  | nil => exact iff_of_true rfl nofun
  | cons keyValue rest inductionHypothesis =>
      rw [callEach, List.forall_mem_cons]
      cases reported : keyValue.reported with
      | true =>
          rw [if_pos rfl]
          refine iff_of_false ?_ (by simp)
          dsimp only
          split <;> exact List.cons_ne_nil _ _
      | false =>
          rw [if_neg (by decide), inductionHypothesis data]
          exact (and_iff_right rfl).symm

/-- More keys and values add no call exactly when the loop has ended before or
none of them is reported. -/
theorem callEach_append_iff (data : σ) (first second : List KeyValue) :
    (callEach pfnCB data (first ++ second)).2 =
        (callEach pfnCB data first).2 ↔
      finishes pfnCB data first = true ∨
        ∀ keyValue ∈ second, keyValue.reported = false := by
  induction first generalizing data with
  | nil =>
      rw [List.nil_append, callEach, callEach_calls_eq_nil_iff]
      simp [finishes]
  | cons keyValue first inductionHypothesis =>
      rw [List.cons_append, callEach, callEach, finishes]
      cases reported : keyValue.reported with
      | true =>
          rw [if_pos rfl, if_pos rfl, if_pos rfl]
          dsimp only
          by_cases ends : (pfnCB data keyValue).2 = .finish
          · simp [ends]
          · rw [if_neg ends, if_neg ends]
            simp only [List.cons.injEq, true_and, ends, decide_false,
              Bool.false_or]
            exact inductionHypothesis (pfnCB data keyValue).1
      | false =>
          rw [if_neg (by decide), if_neg (by decide), if_neg (by decide)]
          exact inductionHypothesis data

end Calls

/-! ## Members of a part of the buffer -/

/-- A key and value with more bytes behind them. -/
def KeyValue.placed (behind : CharPtr) (keyValue : KeyValue) : KeyValue :=
  { keyValue with
    key := keyValue.key ++ behind
    val := keyValue.val ++ behind }

/-- The members of a terminated text, as they lie in a buffer with more bytes
behind the terminator. -/
def membersOf (text behind : List UInt8) : List KeyValue :=
  (jsonObjectForEachKv (text ++ [0])).map fun entry =>
    entry.keyValue.placed behind

/-- From a position on, the loop comes to a string that opens with the last byte
of the text. -/
def HangsFrom (text behind : List UInt8) (positions : List CharPtr) : Prop :=
  ∃ left, left <:+ text ∧ left ++ 0 :: behind ∈ positions ∧ HangingMember left

/-- The loop comes to a string that opens with the last byte of the text. -/
def Hangs (text behind : List UInt8) : Prop :=
  HangsFrom text behind (loopPositions (text ++ 0 :: behind))

/-- The keys and values a loop finds behind the terminator. -/
def strayMembers (behind : CharPtr) : List KeyValue :=
  (entriesFrom behind.length behind).map Entry.keyValue

theorem MemberScan.keyValue_placed {text : List UInt8}
    (scan : MemberScan text) (behind : CharPtr) :
    (scan.entry behind).keyValue =
      (scan.entry []).keyValue.placed behind := by
  simp [MemberScan.entry, ValueScan.element, Entry.keyValue, KeyValue.placed]

theorem HangsFrom.cons_iff {text left : List UInt8}
    (isSuffix : left <:+ text) (behind : CharPtr)
    (positions : List CharPtr) :
    HangsFrom text behind ((left ++ 0 :: behind) :: positions) ↔
      HangingMember left ∨ HangsFrom text behind positions := by
  constructor
  · rintro ⟨other, suffix, mem, hanging⟩
    rcases List.mem_cons.mp mem with same | later
    · exact .inl (List.append_cancel_right same ▸ hanging)
    · exact .inr ⟨other, suffix, later, hanging⟩
  · rintro (hanging | ⟨other, suffix, later, hanging⟩)
    · exact ⟨left, isSuffix, List.mem_cons_self .., hanging⟩
    · exact ⟨other, suffix, List.mem_cons_of_mem _ later, hanging⟩

theorem not_hangsFrom_nil (text behind : List UInt8) :
    ¬HangsFrom text behind [] := by
  rintro ⟨left, -, mem, -⟩
  cases mem

/-- A member that hangs is found. -/
theorem not_hanging_of_none {left behind : List UInt8} (nonzero : 0 ∉ left)
    (absent : jsonGetNextObject (left ++ 0 :: behind) = none) :
    ¬HangingMember left := by
  intro hanging
  obtain ⟨scan, -⟩ := hanging.scan
  have found := (jsonGetNextObject_iff nonzero behind).mpr ⟨scan, rfl⟩
  rw [absent] at found
  cases found

theorem not_hanging_of_end {left : List UInt8} (nonzero : 0 ∉ left)
    (ends : deref (left ++ [0]) = 0) : ¬HangingMember left := by
  cases left with
  | nil => exact fun hanging => absurd hanging.last nofun
  | cons byte left =>
      have ends : byte = 0 := ends
      exact absurd (ends ▸ List.mem_cons_self ..) nonzero

/-- What is not found is not found in the text alone. -/
theorem jsonGetNextObject_alone {left behind : List UInt8} (nonzero : 0 ∉ left)
    (absent : jsonGetNextObject (left ++ 0 :: behind) = none) :
    jsonGetNextObject (left ++ [0]) = none := by
  by_contra answers
  obtain ⟨entry, answer⟩ := Option.ne_none_iff_exists'.mp answers
  obtain ⟨scan, -⟩ := (jsonGetNextObject_iff nonzero []).mp answer
  rw [(jsonGetNextObject_iff nonzero behind).mpr ⟨scan, rfl⟩] at absent
  cases absent

/-- The call hangs where the text hangs. -/
theorem MemberScan.hangs_iff {text : List UInt8} (nonzero : 0 ∉ text)
    (scan : MemberScan text) : scan.value.Hangs ↔ HangingMember text := by
  refine ⟨scan.hanging, fun hanging => ?_⟩
  by_contra stays
  obtain ⟨other, hangs⟩ := hanging.scan
  have found := (jsonGetNextObject_iff nonzero []).mpr ⟨scan, rfl⟩
  rw [(jsonGetNextObject_iff nonzero []).mpr ⟨other, rfl⟩] at found
  have next : (other.entry []).next = (scan.entry []).next :=
    congrArg Entry.next (Option.some.inj found)
  obtain ⟨left, -, -, inside⟩ := scan.next_inside stays []
  have behind : (other.entry []).next = [] :=
    other.value.element_next_hangs hangs []
  rw [← next, behind] at inside
  exact absurd inside.symm (List.append_ne_nil_of_right_ne_nil _
    (List.cons_ne_nil _ _))

/-- What the loop finds from a position in the text on: what it finds in the
text alone, and where it hangs what lies behind. -/
theorem entriesFrom_terminated {text behind : List UInt8} (nonzero : 0 ∉ text)
    (turns : Nat) {left : List UInt8} (isSuffix : left <:+ text)
    {turnsAlone : Nat} (enough : (left ++ 0 :: behind).length ≤ turns)
    (enoughAlone : (left ++ [0]).length ≤ turnsAlone) :
    ∃ extra, (entriesFrom turns (left ++ 0 :: behind)).map Entry.keyValue =
        ((entriesFrom turnsAlone (left ++ [0])).map fun entry =>
          entry.keyValue.placed behind) ++ extra ∧
      (HangsFrom text behind (positionsFrom turns (left ++ 0 :: behind)) →
        extra = strayMembers behind) ∧
      (¬HangsFrom text behind (positionsFrom turns (left ++ 0 :: behind)) →
        extra = []) := by
  induction turns generalizing left turnsAlone with
  | zero =>
      rw [List.length_append, List.length_cons] at enough
      omega
  | succ turns inductionHypothesis =>
      obtain ⟨turnsAlone, rfl⟩ : ∃ fewer, turnsAlone = fewer + 1 := by
        rw [List.length_append, List.length_singleton] at enoughAlone
        exact Nat.exists_eq_add_of_le' (by omega)
      have nonzero_left : 0 ∉ left := fun mem => nonzero (isSuffix.mem mem)
      have sameTest : deref (left ++ 0 :: behind) = deref (left ++ [0]) := by
        cases left <;> rfl
      have once := HangsFrom.cons_iff isSuffix behind []
      have never := not_hangsFrom_nil text behind
      rw [positionsFrom, entriesFrom, entriesFrom, sameTest]
      by_cases ends : deref (left ++ [0]) = 0
      · have stays := not_hanging_of_end nonzero_left ends
        rw [if_pos ends, if_pos ends, if_pos ends]
        exact ⟨[], rfl, fun hangs => absurd (once.mp hangs) (by tauto),
          fun _ => rfl⟩
      rw [if_neg ends, if_neg ends, if_neg ends]
      cases found : jsonGetNextObject (left ++ 0 :: behind) with
      | none =>
          have stays := not_hanging_of_none nonzero_left found
          rw [jsonGetNextObject_alone nonzero_left found]
          exact ⟨[], rfl, fun hangs => absurd (once.mp hangs) (by tauto),
            fun _ => rfl⟩
      | some entry =>
          obtain ⟨scan, rfl⟩ :=
            (jsonGetNextObject_iff nonzero_left behind).mp found
          have alone := (jsonGetNextObject_iff nonzero_left []).mpr
            ⟨scan, rfl⟩
          have shorter := jsonGetNextObject_length found
          have shorterAlone := jsonGetNextObject_length alone
          rw [alone]
          dsimp only
          rw [HangsFrom.cons_iff isSuffix behind, ← scan.hangs_iff nonzero_left,
            List.map_cons, List.map_cons, scan.keyValue_placed behind]
          by_cases hangs : scan.value.Hangs
          · have next : (scan.entry behind).next = behind :=
              scan.value.element_next_hangs hangs behind
            have nextAlone : (scan.entry []).next = [] :=
              scan.value.element_next_hangs hangs []
            have nothing : entriesFrom turnsAlone [] = [] := by
              cases turnsAlone <;> rfl
            rw [next] at shorter ⊢
            rw [nextAlone, nothing, entriesFrom_eq (by omega)]
            exact ⟨strayMembers behind, rfl, fun _ => rfl,
              fun stays => absurd (.inl hangs) stays⟩
          · have next : (scan.entry behind).next =
                scan.value.valueText.drop scan.value.advance ++ 0 :: behind :=
              scan.value.element_next hangs behind
            have nextAlone : (scan.entry []).next =
                scan.value.valueText.drop scan.value.advance ++ [0] :=
              scan.value.element_next hangs []
            have inside := (List.drop_suffix scan.value.advance _).trans
              ((scan.value.valueText_suffix.trans scan.value.rest_suffix).trans
                (scan.fromColon_suffix.trans isSuffix))
            rw [next] at shorter ⊢
            rw [nextAlone] at shorterAlone ⊢
            have roomAlone : (scan.value.valueText.drop scan.value.advance ++
                [0]).length ≤ turnsAlone := by omega
            obtain ⟨extra, same, stray, none_left⟩ :=
              inductionHypothesis inside (by omega) roomAlone
            refine ⟨extra, by rw [same, List.cons_append], ?_, ?_⟩
            · rintro (here | later)
              · exact absurd here hangs
              · exact stray later
            · intro stays
              exact none_left fun later => stays (.inr later)

/-- The keys and values of the loop over a terminated text. -/
theorem keyValues_terminated {text : List UInt8} (nonzero : 0 ∉ text)
    (behind : CharPtr) :
    ∃ extra, (jsonObjectForEachKv (text ++ 0 :: behind)).map Entry.keyValue =
        membersOf text behind ++ extra ∧
      (Hangs text behind → extra = strayMembers behind) ∧
      (¬Hangs text behind → extra = []) := by
  unfold Hangs membersOf jsonObjectForEachKv loopPositions
  rcases jsonGetObject_terminated text behind with
    ⟨nothing, nothingAlone⟩ | ⟨left, isSuffix, begins, beginsAlone⟩
  · rw [nothing, nothingAlone]
    exact ⟨[], rfl, fun hangs => absurd hangs (not_hangsFrom_nil text behind),
      fun _ => rfl⟩
  · rw [begins, beginsAlone]
    exact entriesFrom_terminated nonzero _ isSuffix (Nat.le_refl _)
      (Nat.le_refl _)

/-! ## The effect on the buffer -/

/-- The call leaves the buffer as it was, and reports the members of the first
bytes. -/
def ReadOnly {σ : Type} (buffer : CharPtr) (strLen : Nat)
    (pfnCB : JsonParseCb σ) (data : σ) : Prop :=
  let after := jsonParseNameValue (some buffer) strLen (some pfnCB) data
  after.buffer = some buffer ∧
    after.calls = (callEach pfnCB data
      (membersOf (buffer.take strLen) (buffer.drop (strLen + 1)))).2

theorem length_cString {text : List UInt8} (nonzero : 0 ∉ text)
    (behind : CharPtr) : (cString (text ++ 0 :: behind)).length =
      text.length := by
  have passes : ∀ byte ∈ text, decide (byte ≠ 0) = true := fun byte mem =>
    decide_eq_true fun zero => nonzero (zero ▸ mem)
  rw [cString, List.takeWhile_append_of_pos passes, List.takeWhile_cons,
    if_neg (by decide), List.append_nil]

/-- A text that is cut keeps the terminator that was written. -/
theorem jsonParseNameValue_cut {σ : Type} {text : List UInt8}
    (nonzero : 0 ∉ text) (behind : CharPtr) {strLen : Nat}
    (positive : strLen ≠ 0) (short : strLen < text.length)
    (pfnCB : JsonParseCb σ) (data : σ) :
    (jsonParseNameValue (some (text ++ 0 :: behind)) strLen (some pfnCB)
      data).buffer = some ((text ++ 0 :: behind).set strLen 0) := by
  have differs : strLen ≠ (cString (text ++ 0 :: behind)).length := by
    rw [length_cString nonzero]
    omega
  have cut_eq : (text ++ 0 :: behind).set strLen 0 =
      text.take strLen ++ 0 :: (text.drop (strLen + 1) ++ 0 :: behind) := by
    rw [List.set_append_left _ _ short, List.set_eq_take_append_cons_drop,
      if_pos short, List.append_assoc, List.cons_append]
  have same : strLen =
      (cString ((text ++ 0 :: behind).set strLen 0)).length := by
    rw [cut_eq, length_cString fun mem => nonzero (List.mem_of_mem_take mem),
      List.length_take_of_le (Nat.le_of_lt short)]
  unfold jsonParseNameValue
  dsimp only
  rw [if_neg positive, if_pos differs]
  exact congrArg some (if_neg (not_not_intro same))

/-- The whole of a string is not cut. -/
theorem jsonParseNameValue_whole {σ : Type} {text : List UInt8}
    (nonzero : 0 ∉ text) (behind : CharPtr) (nonempty : text.length ≠ 0)
    (pfnCB : JsonParseCb σ) (data : σ) :
    let after := jsonParseNameValue (some (text ++ 0 :: behind)) text.length
      (some pfnCB) data
    after.buffer = some (text ++ 0 :: behind) ∧
      after.calls = (callEach pfnCB data
        ((jsonObjectForEachKv (text ++ 0 :: behind)).map
          Entry.keyValue)).2 := by
  have same : ¬text.length ≠ (cString (text ++ 0 :: behind)).length := by
    rw [length_cString nonzero]
    exact not_not_intro rfl
  unfold jsonParseNameValue
  dsimp only
  rw [if_neg nonempty, if_neg same]
  exact ⟨congrArg some (if_neg same), rfl⟩

/-- `json_parse_name_value` leaves the buffer as it was and reports the members
of the first bytes exactly when these are the whole string, and the loop either
does not come to a string that opens with the last byte, or is ended by the
callback before that, or finds nothing to report behind the terminator. -/
theorem jsonParseNameValue_readOnly_iff {σ : Type} {text : List UInt8}
    (nonzero : 0 ∉ text) (behind : CharPtr) {strLen : Nat}
    (positive : 0 < strLen) (within : strLen ≤ text.length)
    (pfnCB : JsonParseCb σ) (data : σ) :
    ReadOnly (text ++ 0 :: behind) strLen pfnCB data ↔
      strLen = text.length ∧
        (Hangs text behind → finishes pfnCB data (membersOf text behind) ∨
          ∀ keyValue ∈ strayMembers behind, keyValue.reported = false) := by
  by_cases whole : strLen = text.length
  · subst whole
    obtain ⟨buffer, calls⟩ := jsonParseNameValue_whole nonzero behind
      (Nat.ne_of_gt positive) pfnCB data
    have front : (text ++ 0 :: behind).take text.length = text :=
      List.take_left' rfl
    have rest : (text ++ 0 :: behind).drop (text.length + 1) = behind := by
      rw [← List.drop_drop, List.drop_left' rfl]
      rfl
    obtain ⟨extra, found, stray, none_left⟩ :=
      keyValues_terminated nonzero behind
    unfold ReadOnly
    dsimp only at buffer calls ⊢
    rw [buffer, calls, front, rest, found, callEach_append_iff]
    rw [and_iff_right rfl, and_iff_right rfl]
    by_cases hangs : Hangs text behind
    · rw [stray hangs]
      exact ⟨fun ends _ => ends, fun ends => ends hangs⟩
    · rw [none_left hangs]
      exact iff_of_true (.inr nofun) fun here => absurd here hangs
  · have short : strLen < text.length := Nat.lt_of_le_of_ne within whole
    refine iff_of_false (fun readOnly => ?_) (fun both => whole both.1)
    have buffer := readOnly.1
    rw [jsonParseNameValue_cut nonzero behind (Nat.ne_of_gt positive) short]
      at buffer
    have byte := congrArg (fun bytes : List UInt8 => bytes[strLen]?)
      (Option.some.inj buffer)
    rw [List.getElem?_set_self (by simp; omega),
      List.getElem?_append_left short, List.getElem?_eq_getElem short] at byte
    exact nonzero (Option.some.inj byte ▸ List.getElem_mem short)

/-- A callback that only counts. -/
def countCb : JsonParseCb Nat := fun count _ => (count + 1, .ok)

/-- The whole of `{"a":7}` is left as it was. -/
theorem jsonParseNameValue_readOnly_iff_whole :
    ReadOnly ([123, 34, 97, 34, 58, 55, 125] ++ 0 :: [9]) 7 countCb 0 := by
  apply (jsonParseNameValue_readOnly_iff (by decide) [9] (by decide)
    (by decide) countCb 0).mpr
  refine ⟨rfl, fun hangs => ?_⟩
  obtain ⟨left, isSuffix, -, hanging⟩ := hangs
  exact absurd hanging (not_hanging_of_last (by decide) isSuffix)

/-- Of `{"a":7}x` the first seven bytes: the member is reported, and the `x` is
lost. -/
theorem cutBuffer_broken :
    (jsonParseNameValue (some [123, 34, 97, 34, 58, 55, 125, 120, 0]) 7
        (some countCb) 0).buffer = some [123, 34, 97, 34, 58, 55, 125, 0, 0] ∧
      (jsonParseNameValue (some [123, 34, 97, 34, 58, 55, 125, 120, 0]) 7
        (some countCb) 0).data = 1 ∧
      ¬ReadOnly [123, 34, 97, 34, 58, 55, 125, 120, 0] 7 countCb 0 := by
  refine ⟨by decide, by decide, fun readOnly => ?_⟩
  have buffer := readOnly.1
  revert buffer
  decide

end Json
end UIoT
