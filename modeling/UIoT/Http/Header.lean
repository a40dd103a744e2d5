import UIoT.Http.Client

/-!
# Gathering the header

The header of a response is read in pieces of at most 32 bytes behind each other
into an array.  Here is what the array holds after some reads, as long as there
is room for them, and where the loop over the header ends.
-/

namespace UIoT
namespace Http

/-! ## Searching -/

theorem strstr_eq_some {pattern text : List UInt8} {index : Nat}
    (found : strstr pattern text = some index) :
    pattern <+: text.drop index ∧
      ∀ earlier, earlier < index → ¬pattern <+: text.drop earlier := by
  induction text generalizing index with
  | nil =>
      rw [strstr] at found
      split at found
      · rename_i empty
        obtain rfl := Option.some.inj found
        exact ⟨empty ▸ List.nil_prefix,
          fun _ less => absurd less (Nat.not_lt_zero _)⟩
      · cases found
  | cons byte text inductionHypothesis =>
      rw [strstr] at found
      split at found
      · rename_i here
        obtain rfl := Option.some.inj found
        exact ⟨here, fun _ less => absurd less (Nat.not_lt_zero _)⟩
      · rename_i absent
        obtain ⟨before, later, rfl⟩ := Option.map_eq_some_iff.mp found
        obtain ⟨occurs, first⟩ := inductionHypothesis later
        refine ⟨occurs, fun earlier less => ?_⟩
        cases earlier with
        | zero => exact absent
        | succ earlier => exact first earlier (Nat.lt_of_succ_lt_succ less)

/-- The pattern is found in a text that has it somewhere. -/
theorem strstr_isSome_of_occurs {pattern text : List UInt8}
    (occurs : pattern <:+: text) : (strstr pattern text).isSome := by
  induction text with
  | nil =>
      rw [strstr, if_pos (List.infix_nil.mp occurs)]
      rfl
  | cons byte text inductionHypothesis =>
      rw [strstr]
      split
      · rfl
      · rename_i absent
        have later := (List.infix_cons_iff.mp occurs).resolve_left absent
        rw [Option.isSome_map]
        exact inductionHypothesis later

theorem infix_of_strstr {pattern text : List UInt8} {index : Nat}
    (found : strstr pattern text = some index) : pattern <:+: text :=
  (strstr_eq_some found).1.isInfix.trans (List.drop_suffix ..).isInfix

theorem strstr_eq_none_iff {pattern text : List UInt8} :
    strstr pattern text = none ↔ ¬pattern <:+: text := by
  constructor
  · intro missing occurs
    have found := strstr_isSome_of_occurs occurs
    rw [missing] at found
    cases found
  · intro absent
    cases found : strstr pattern text with
    | none => rfl
    | some index => exact absurd (infix_of_strstr found) absent

/-- An occurrence ends within the text. -/
theorem strstr_bound {pattern text : List UInt8} {index : Nat}
    (found : strstr pattern text = some index) :
    index + pattern.length ≤ text.length ∨ pattern = [] := by
  by_cases empty : pattern = []
  · exact .inr empty
  · have shorter := (strstr_eq_some found).1.length_le
    have positive := List.length_pos_iff.mpr empty
    rw [List.length_drop] at shorter
    exact .inl (by omega)

/-- What is found in a text is found there in every text it begins. -/
theorem strstr_append {pattern text : List UInt8} {index : Nat}
    (found : strstr pattern text = some index) (nonempty : pattern ≠ [])
    (rest : List UInt8) : strstr pattern (text ++ rest) = some index := by
  induction text generalizing index with
  | nil =>
      rw [strstr, if_neg nonempty] at found
      cases found
  | cons byte text inductionHypothesis =>
      rw [strstr] at found
      rw [List.cons_append, strstr]
      split at found
      · rename_i here
        have longer : pattern <+: byte :: (text ++ rest) :=
          here.trans (List.prefix_append (byte :: text) rest)
        rw [if_pos longer]
        exact found
      · rename_i absent
        obtain ⟨before, later, rfl⟩ := Option.map_eq_some_iff.mp found
        have bound := (strstr_bound later).resolve_right nonempty
        have still : ¬pattern <+: byte :: (text ++ rest) := by
          intro longer
          apply absent
          refine List.prefix_of_prefix_length_le longer
            (List.prefix_append (byte :: text) rest) ?_
          rw [List.length_cons]
          omega
        rw [if_neg still, inductionHypothesis later]
        rfl

/-! ## Bytes in arrays -/

theorem length_overlay (buffer : List UInt8) (offset : Nat)
    (bytes : List UInt8) :
    (overlay buffer offset bytes).length = buffer.length := by
  unfold overlay
  rw [List.length_take, List.length_append, List.length_append,
    List.length_take, List.length_drop]
  omega

/-- What is written within a buffer. -/
theorem overlay_eq {buffer : List UInt8} {offset : Nat} {bytes : List UInt8}
    (within : offset + bytes.length ≤ buffer.length) :
    overlay buffer offset bytes =
      buffer.take offset ++ bytes ++ buffer.drop (offset + bytes.length) := by
  unfold overlay
  apply List.take_of_length_le
  rw [List.length_append, List.length_append, List.length_take,
    List.length_drop]
  omega

/-- Bytes written behind a text in an array. -/
theorem overlay_append {text bytes rest : List UInt8}
    (within : bytes.length ≤ rest.length) :
    overlay (text ++ rest) text.length bytes =
      text ++ bytes ++ rest.drop bytes.length := by
  rw [overlay_eq (by rw [List.length_append]; omega), List.take_left,
    ← List.drop_drop, List.drop_left]

/-- What is written before a place does not change what lies from there on. -/
theorem drop_overlay {buffer bytes : List UInt8} {offset count : Nat}
    (before : offset + bytes.length ≤ count)
    (within : offset + bytes.length ≤ buffer.length) :
    (overlay buffer offset bytes).drop count = buffer.drop count := by
  have size : (buffer.take offset ++ bytes).length = offset + bytes.length := by
    rw [List.length_append, List.length_take]
    omega
  rw [overlay_eq within, List.drop_append,
    List.drop_eq_nil_of_le (by omega), List.nil_append, size, List.drop_drop]
  congr 1
  omega

@[simp] theorem overlay_nil (buffer : List UInt8) (offset : Nat) :
    overlay buffer offset [] = buffer := by
  unfold overlay
  rw [List.append_nil, List.length_nil, Nat.add_zero, List.take_append_drop,
    List.take_length]

/-! ## The array of the header -/

/-- An array with a text and its terminator over what was there. -/
def headerArray (text stale : List UInt8) : List UInt8 :=
  text ++ 0 :: stale.drop (text.length + 1)

/-- The part of a text the string functions see. -/
def visible (text : List UInt8) : List UInt8 := text.takeWhile (· ≠ 0)

theorem length_headerArray {text stale : List UInt8}
    (fits : text.length < stale.length) :
    (headerArray text stale).length = stale.length := by
  unfold headerArray
  rw [List.length_append, List.length_cons, List.length_drop]
  omega

theorem cString_headerArray (text stale : List UInt8) :
    cString (headerArray text stale) = visible text := by
  change (text ++ 0 :: _).takeWhile (· ≠ 0) = text.takeWhile (· ≠ 0)
  rw [List.takeWhile_append]
  split
  · rename_i all
    have whole : text.takeWhile (· ≠ 0) = text :=
      (List.takeWhile_prefix _).eq_of_length all
    rw [List.takeWhile_cons_of_neg (by simp), List.append_nil, whole]
  · rfl

/-- The first bytes written to an array, with their terminator. -/
theorem overlay_first {bytes buffer : List UInt8}
    (fits : bytes.length < buffer.length) :
    overlay (overlay buffer 0 bytes) bytes.length [0] =
      headerArray bytes buffer := by
  have first : overlay buffer 0 bytes = bytes ++ buffer.drop bytes.length := by
    rw [overlay_eq (by omega), List.take_zero, List.nil_append, Nat.zero_add]
  rw [first, overlay_append]
  · rw [List.drop_drop]
    exact List.append_assoc ..
  · rw [List.length_drop]
    exact Nat.sub_pos_of_lt fits

/-- A further read behind the text in the array. -/
theorem overlay_headerArray {text bytes stale : List UInt8}
    (fits : text.length + bytes.length < stale.length) :
    overlay (overlay (headerArray text stale) text.length bytes)
        (text.length + bytes.length) [0] =
      headerArray (text ++ bytes) stale := by
  have room : (0 :: stale.drop (text.length + 1)).length =
      stale.length - text.length := by
    rw [List.length_cons, List.length_drop]
    omega
  have behind : ((0 :: stale.drop (text.length + 1)).drop bytes.length).drop 1 =
      stale.drop ((text ++ bytes).length + 1) := by
    rw [List.drop_drop, List.drop_succ_cons, List.drop_drop,
      List.length_append]
    congr 1
    omega
  unfold headerArray
  rw [overlay_append (by omega), ← List.length_append, overlay_append,
    List.length_singleton, behind, List.append_assoc (text ++ bytes)]
  · rfl
  · rw [List.length_drop, room, List.length_singleton]
    omega

/-- The status line is taken off the front of the array. -/
theorem overlay_statusLine {text stale : List UInt8} {crlfPos : Nat}
    (within : crlfPos + 2 ≤ text.length) (fits : text.length < stale.length) :
    let data := overlay (headerArray text stale) crlfPos [0]
    overlay data 0
        ((data.drop (crlfPos + 2)).take (text.length - (crlfPos + 2) + 1)) =
      headerArray (text.drop (crlfPos + 2)) data := by
  intro data
  have size : data.length = stale.length := by
    rw [length_overlay, length_headerArray fits]
  have kept : data.drop (crlfPos + 2) =
      text.drop (crlfPos + 2) ++ 0 :: stale.drop (text.length + 1) := by
    rw [drop_overlay]
    · rw [headerArray, List.drop_append_of_le_length within]
    · rw [List.length_singleton]
      omega
    · rw [List.length_singleton, length_headerArray fits]
      omega
  have moved :
      (data.drop (crlfPos + 2)).take (text.length - (crlfPos + 2) + 1) =
        text.drop (crlfPos + 2) ++ [0] := by
    rw [kept, ← List.length_drop, List.take_append, List.take_of_length_le]
    · simp
    · omega
  rw [moved, overlay_eq]
  · simp [headerArray]
  · simp only [List.length_append, List.length_drop, List.length_singleton]
    omega

/-! ## Reads -/

/-- A text in which the string functions see the end of the header. -/
def HasBlankLine (text : List UInt8) : Prop := headerEnd <:+: visible text

instance (text : List UInt8) : Decidable (HasBlankLine text) :=
  inferInstanceAs (Decidable (headerEnd <:+: visible text))

/-- The texts that are gathered from a first one by reads of at most
`HTTP_CLIENT_READ_HEAD_SIZE` bytes until one has a blank line, each with what is
still to arrive. -/
inductive Gathered (timeoutMs : Nat) (first : List UInt8)
    (arrivals : List Arrival) : List UInt8 → List Arrival → Prop
  | start : Gathered timeoutMs first arrivals first arrivals
  | more {text bytes : List UInt8} {elapsed : Nat}
      {later rest : List Arrival} :
      Gathered timeoutMs first arrivals text later →
      ¬HasBlankLine text →
      netRead later httpClientReadHeadSize timeoutMs =
        (⟨elapsed, .ok bytes⟩, rest) →
      Gathered timeoutMs first arrivals (text ++ bytes) rest

/-- What is gathered behind the first further read is gathered. -/
theorem Gathered.behind {timeoutMs elapsed : Nat} {first bytes : List UInt8}
    {arrivals rest : List Arrival} (unfinished : ¬HasBlankLine first)
    (read : netRead arrivals httpClientReadHeadSize timeoutMs =
      (⟨elapsed, .ok bytes⟩, rest))
    {text : List UInt8} {later : List Arrival}
    (gathered : Gathered timeoutMs (first ++ bytes) rest text later) :
    Gathered timeoutMs first arrivals text later := by
  induction gathered with
  | start => exact .more .start unfinished read
  | more _ ongoing next inductionHypothesis =>
      exact .more inductionHypothesis ongoing next

/-- A read brings no more bytes than there is room for. -/
theorem length_netRead {arrivals rest : List Arrival}
    {room timeoutMs elapsed : Nat} {bytes : List UInt8}
    (read : netRead arrivals room timeoutMs = (⟨elapsed, .ok bytes⟩, rest)) :
    bytes.length ≤ room := by
  unfold netRead at read
  split at read
  · cases read
    exact Nat.zero_le _
  · cases read
  · split at read
    · cases read
      assumption
    · cases read
      exact List.length_take_le ..

end Http
end UIoT
