import UIoT.Http.Header

/-!
# Well-formed responses

An HTTP/1.1 response that announces the length of its body, and reads that bring
its bytes piece by piece.  Where the string functions find the end of its status
line and of its header depends on how many bytes have been read, not on how
they were split.
-/

namespace UIoT
namespace Http

/-! ## The grammar -/

/-- A byte within a line: it neither ends a line nor a string. -/
def IsText (byte : UInt8) : Prop := byte ≠ 0 ∧ byte ≠ 10 ∧ byte ≠ 13

instance (byte : UInt8) : Decidable (IsText byte) :=
  inferInstanceAs (Decidable (_ ∧ _))

/-- The small letter of a capital one. -/
def toLower (byte : UInt8) : UInt8 :=
  if 65 ≤ byte ∧ byte ≤ 90 then byte + 32 else byte

/-- A line of the header: a name, a colon and a value. -/
structure HeaderField where
  name : List UInt8
  value : List UInt8
  named : name ≠ []
  nameText : ∀ byte ∈ name, IsText byte
  valueText : ∀ byte ∈ value, IsText byte

namespace HeaderField

def line (field : HeaderField) : List UInt8 := field.name ++ 58 :: field.value

/-- The field is a `Content-Length`, with its number between optional blanks. -/
def Announces (field : HeaderField) (length : Nat) : Prop :=
  field.name.map toLower = ascii "content-length" ∧
    ∃ before digits after, field.value = before ++ digits ++ after ∧
      (∀ byte ∈ before ++ after, byte = 32 ∨ byte = 9) ∧
      digits ≠ [] ∧ (∀ byte ∈ digits, isDigit byte) ∧
      digitsValue digits = length

end HeaderField

/-- A response with a field that announces the length of its body. -/
structure Response where
  statusCode : List UInt8
  reason : List UInt8
  fields : List HeaderField
  body : List UInt8
  threeDigits : statusCode.length = 3 ∧ ∀ byte ∈ statusCode, isDigit byte
  reasonText : ∀ byte ∈ reason, IsText byte
  announced : ∃ field ∈ fields, field.Announces body.length

namespace Response

/-- The status line, without its end. -/
def statusLine (r : Response) : List UInt8 :=
  ascii "HTTP/1.1 " ++ r.statusCode ++ 32 :: r.reason

/-- Lines with their ends, and the blank line behind them. -/
def fieldLines : List HeaderField → List UInt8
  | [] => [13, 10]
  | field :: fields => field.line ++ 13 :: 10 :: fieldLines fields

/-- The header behind the status line. -/
def fieldSection (r : Response) : List UInt8 := fieldLines r.fields

/-- The status line, the fields and the blank line. -/
def header (r : Response) : List UInt8 :=
  r.statusLine ++ 13 :: 10 :: r.fieldSection

/-- The whole response. -/
def bytes (r : Response) : List UInt8 := r.header ++ r.body

end Response

/-! ## Searching a response -/

theorem visible_append {text : List UInt8} (noZero : 0 ∉ text)
    (rest : List UInt8) : visible (text ++ rest) = text ++ visible rest := by
  apply List.takeWhile_append_of_pos
  intro byte mem
  rw [decide_eq_true_iff]
  rintro rfl
  exact noZero mem

theorem visible_eq {text : List UInt8} (noZero : 0 ∉ text) :
    visible text = text := by
  have whole := visible_append noZero []
  rw [List.append_nil] at whole
  rw [whole]
  exact List.append_nil _

/-- A pattern that begins with a line end is not in a line. -/
theorem strstr_line_append {line pattern : List UInt8}
    (text : ∀ byte ∈ line, IsText byte) (rest : List UInt8) :
    strstr (13 :: pattern) (line ++ rest) =
      (strstr (13 :: pattern) rest).map (· + line.length) := by
  induction line with
  | nil =>
      rw [List.nil_append]
      cases strstr (13 :: pattern) rest <;> rfl
  | cons byte line inductionHypothesis =>
      have here : ¬13 :: pattern <+: byte :: (line ++ rest) := by
        intro occurs
        have same := (List.cons_prefix_cons.mp occurs).1
        exact (text byte (List.mem_cons_self ..)).2.2 same.symm
      have later := inductionHypothesis fun byte mem =>
        text byte (List.mem_cons_of_mem _ mem)
      rw [List.cons_append, strstr, if_neg here, later, Option.map_map]
      rfl

/-- Where the first occurrence of a pattern ends a text without zero, what is
found in the beginning of a continued text depends on its length. -/
theorem strstr_visible_beginning {pattern marked text rest behind : List UInt8}
    {index : Nat} (nonempty : pattern ≠ []) (noZero : 0 ∉ marked)
    (found : strstr pattern marked = some index)
    (atEnd : index + pattern.length = marked.length)
    (split : marked ++ behind = text ++ rest) :
    strstr pattern (visible text) =
      if marked.length ≤ text.length then some index else none := by
  split
  · rename_i reached
    obtain ⟨more, rfl⟩ : marked <+: text :=
      List.prefix_of_prefix_length_le (List.prefix_append marked behind)
        (split ▸ List.prefix_append text rest) reached
    rw [visible_append noZero]
    exact strstr_append found nonempty _
  · rename_i short
    obtain ⟨more, rfl⟩ : text <+: marked :=
      List.prefix_of_prefix_length_le (List.prefix_append text rest)
        (split ▸ List.prefix_append marked behind)
        (Nat.le_of_not_le short)
    have clean : 0 ∉ text := fun mem =>
      noZero (List.mem_append_left _ mem)
    rw [visible_eq clean]
    cases early : strstr pattern text with
    | none => rfl
    | some before =>
        have same := strstr_append early nonempty more
        rw [found] at same
        obtain rfl := Option.some.inj same
        have bound := (strstr_bound early).resolve_right nonempty
        rw [atEnd] at bound
        exact absurd bound short

theorem not_mem_zero_of_text {line : List UInt8}
    (text : ∀ byte ∈ line, IsText byte) : 0 ∉ line :=
  fun mem => (text 0 mem).1 rfl

namespace HeaderField

theorem line_text (field : HeaderField) :
    ∀ byte ∈ field.line, IsText byte := by
  intro byte mem
  rcases List.mem_append.mp mem with inName | inRest
  · exact field.nameText byte inName
  · rcases List.mem_cons.mp inRest with rfl | inValue
    · decide
    · exact field.valueText byte inValue

end HeaderField

namespace Response

theorem statusLine_text (r : Response) :
    ∀ byte ∈ r.statusLine, IsText byte := by
  have digitText : ∀ byte, isDigit byte → IsText byte := by
    intro byte digit
    refine ⟨?_, ?_, ?_⟩ <;> rintro rfl <;> exact absurd digit (by decide)
  have version : ∀ byte ∈ ascii "HTTP/1.1 ", IsText byte := by
    decide +kernel
  intro byte mem
  rcases List.mem_append.mp mem with begins | inReason
  · rcases List.mem_append.mp begins with inVersion | inCode
    · exact version byte inVersion
    · exact digitText byte (r.threeDigits.2 byte inCode)
  · rcases List.mem_cons.mp inReason with rfl | inReason
    · decide
    · exact r.reasonText byte inReason

theorem not_mem_zero_fieldLines (fields : List HeaderField) :
    0 ∉ fieldLines fields := by
  induction fields with
  | nil => decide
  | cons field fields inductionHypothesis =>
      intro mem
      rcases List.mem_append.mp mem with inLine | behind
      · exact not_mem_zero_of_text field.line_text inLine
      · rcases List.mem_cons.mp behind with isReturn | behind
        · exact absurd isReturn (by decide)
        · rcases List.mem_cons.mp behind with isFeed | behind
          · exact absurd isFeed (by decide)
          · exact inductionHypothesis behind

/-- The first blank line is the last. -/
theorem strstr_fieldLines {fields : List HeaderField}
    (nonempty : fields ≠ []) :
    ∃ index, strstr headerEnd (fieldLines fields) = some index ∧
      index + headerEnd.length = (fieldLines fields).length := by
  induction fields with
  | nil => exact absurd rfl nonempty
  | cons field fields inductionHypothesis =>
      cases fields with
      | nil =>
          refine ⟨0 + field.line.length, ?_, ?_⟩
          · rw [fieldLines, headerEnd, strstr_line_append field.line_text]
            rfl
          · simp [fieldLines, headerEnd]
      | cons next fields =>
          obtain ⟨index, found, atEnd⟩ :=
            inductionHypothesis (List.cons_ne_nil _ _)
          obtain ⟨first, name, named⟩ := List.exists_cons_of_ne_nil next.named
          have text := next.nameText first (named ▸ List.mem_cons_self ..)
          have begins : fieldLines (next :: fields) =
              first :: (name ++ 58 :: next.value ++
                13 :: 10 :: fieldLines fields) := by
            rw [fieldLines, HeaderField.line, named]
            rfl
          have behind : strstr headerEnd
              (13 :: 10 :: fieldLines (next :: fields)) = some (index + 2) := by
            have atReturn : ¬headerEnd <+:
                13 :: 10 :: fieldLines (next :: fields) := by
              rw [begins, headerEnd]
              intro occurs
              have third := (List.cons_prefix_cons.mp
                (List.cons_prefix_cons.mp occurs).2).2
              exact text.2.2 (List.cons_prefix_cons.mp third).1.symm
            have atFeed : ¬headerEnd <+:
                10 :: fieldLines (next :: fields) := by
              intro occurs
              exact absurd (List.cons_prefix_cons.mp occurs).1 (by decide)
            rw [strstr, if_neg atReturn, strstr, if_neg atFeed, found]
            rfl
          refine ⟨index + 2 + field.line.length, ?_, ?_⟩
          · rw [fieldLines, headerEnd, strstr_line_append field.line_text,
              ← headerEnd, behind]
            rfl
          · rw [fieldLines, List.length_append, List.length_cons,
              List.length_cons]
            omega

/-- The end of the status line is seen when it has been read. -/
theorem strstr_statusLine {r : Response} {text rest : List UInt8}
    (split : r.bytes = text ++ rest) :
    strstr [13, 10] (visible text) =
      if r.statusLine.length + 2 ≤ text.length then some r.statusLine.length
      else none := by
  have noZero : 0 ∉ r.statusLine ++ [13, 10] := by
    intro mem
    rcases List.mem_append.mp mem with inLine | inEnd
    · exact not_mem_zero_of_text r.statusLine_text inLine
    · exact absurd inEnd (by decide)
  have found : strstr [13, 10] (r.statusLine ++ [13, 10]) =
      some (0 + r.statusLine.length) := by
    rw [strstr_line_append r.statusLine_text]
    rfl
  rw [Nat.zero_add] at found
  have whole : r.statusLine ++ [13, 10] ++ (r.fieldSection ++ r.body) =
      text ++ rest := by
    rw [← split, bytes, header, List.append_assoc, List.append_assoc]
    rfl
  have seen := strstr_visible_beginning (by decide) noZero found
    List.length_append.symm whole
  rw [List.length_append] at seen
  exact seen

/-- The blank line is seen when the header has been read. -/
theorem strstr_fieldSection (r : Response) {text rest : List UInt8}
    (split : r.fieldSection ++ r.body = text ++ rest) :
    ∃ index, index + 4 = r.fieldSection.length ∧
      strstr headerEnd (visible text) =
        if r.fieldSection.length ≤ text.length then some index else none := by
  obtain ⟨field, mem, -⟩ := r.announced
  obtain ⟨index, found, atEnd⟩ :=
    strstr_fieldLines (List.ne_nil_of_mem mem)
  exact ⟨index, atEnd, strstr_visible_beginning (by decide)
    (not_mem_zero_fieldLines _) found atEnd split⟩

theorem hasBlankLine_iff {r : Response} {text rest : List UInt8}
    (split : r.fieldSection ++ r.body = text ++ rest) :
    HasBlankLine text ↔ r.fieldSection.length ≤ text.length := by
  obtain ⟨index, -, found⟩ := r.strstr_fieldSection split
  have missing : strstr headerEnd (visible text) = none ↔
      ¬HasBlankLine text := strstr_eq_none_iff
  rw [found] at missing
  by_cases reached : r.fieldSection.length ≤ text.length
  · rw [if_pos reached] at missing
    refine iff_of_true ?_ reached
    by_contra unseen
    exact absurd (missing.mpr unseen) (by simp)
  · rw [if_neg reached] at missing
    exact iff_of_false (missing.mp rfl) reached

end Response

/-! ## Reads -/

/-- The arrivals bring the bytes, in pieces that are not empty. -/
inductive Delivers : List Arrival → List UInt8 → Prop
  | nil : Delivers [] []
  | cons {arrivals : List Arrival} {chunk bytes : List UInt8} (elapsed : Nat) :
      chunk ≠ [] → Delivers arrivals bytes →
      Delivers (⟨elapsed, .ok chunk⟩ :: arrivals) (chunk ++ bytes)

/-- A read brings the first of the bytes that are still to come, and some of
them as long as there are any. -/
theorem Delivers.read {arrivals : List Arrival} {bytes : List UInt8}
    (delivers : Delivers arrivals bytes) (room timeoutMs : Nat) :
    ∃ elapsed chunk later rest,
      netRead arrivals room timeoutMs = (⟨elapsed, .ok chunk⟩, later) ∧
      bytes = chunk ++ rest ∧ Delivers later rest ∧
      (bytes ≠ [] → 0 < room → chunk ≠ []) := by
  cases delivers with
  | nil =>
      exact ⟨_, [], [], [], rfl, rfl, .nil, fun absent => absurd rfl absent⟩
  | @cons arrivals chunk bytes elapsed nonempty delivers =>
      unfold netRead
      dsimp only
      split
      · exact ⟨_, _, _, _, rfl, rfl, delivers, fun _ _ => nonempty⟩
      · rename_i long
        refine ⟨_, _, _, chunk.drop room ++ bytes, rfl, ?_, ?_, ?_⟩
        · rw [← List.append_assoc, List.take_append_drop]
        · apply Delivers.cons _ _ delivers
          intro empty
          exact long (List.drop_eq_nil_iff.mp empty)
        · intro _ positive empty
          rcases List.take_eq_nil_iff.mp empty with noRoom | noChunk
          · exact absurd noRoom positive.ne'
          · exact nonempty noChunk

theorem Delivers.eq_nil {arrivals : List Arrival}
    (delivers : Delivers arrivals []) : arrivals = [] := by
  generalize empty : ([] : List UInt8) = bytes at delivers
  cases delivers with
  | nil => rfl
  | cons _ nonempty _ =>
      exact absurd (List.append_eq_nil_iff.mp empty.symm).1 nonempty

end Http
end UIoT
