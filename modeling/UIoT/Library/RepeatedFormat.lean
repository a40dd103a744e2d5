import Mathlib.Data.List.Basic

/-!
# Formats of repeated values

A list of values is written as the values one behind the other.  It is read
back by a parser of one value that is applied until nothing is left.  Where the
parser of one value inverts its encoding, the parser of the list inverts the
encoding of the list, and no encoding of as many values begins another one.
-/

namespace RepeatedFormat

universe u v

variable {α : Type u} {β : Type v}

/-- Parse values until nothing is left.  The fuel bounds their number. -/
def parseAll (parse : List β → Option (α × List β)) :
    (fuel : Nat) → List β → Option (List α)
  | _, [] => some []
  | 0, _ :: _ => none
  | fuel + 1, item :: items =>
      match parse (item :: items) with
      | none => none
      | some (value, rest) =>
          (parseAll parse fuel rest).map (value :: ·)

/-- The parser reads back the encoding of every valid value and accepts nothing
else. -/
structure Inverts (parse : List β → Option (α × List β)) (valid : α → Prop)
    (encode : α → List β) : Prop where
  complete : ∀ value rest, valid value →
    parse (encode value ++ rest) = some (value, rest)
  sound : ∀ items value rest, parse items = some (value, rest) →
    valid value ∧ items = encode value ++ rest
  nonempty : ∀ value, encode value ≠ []

variable {parse : List β → Option (α × List β)} {valid : α → Prop}
  {encode : α → List β}

/-- The encoding of a valid value is not the beginning of another one. -/
theorem Inverts.append_inj (inverts : Inverts parse valid encode)
    {first second : α} (firstValid : valid first) (secondValid : valid second)
    {rest other : List β}
    (same : encode first ++ rest = encode second ++ other) :
    first = second ∧ rest = other := by
  have left := inverts.complete first rest firstValid
  rw [same, inverts.complete second other secondValid] at left
  obtain ⟨values, rests⟩ := Prod.mk.inj (Option.some.inj left)
  exact ⟨values.symm, rests.symm⟩

/-- The encoding of a list of valid values is not the beginning of that of
another one with as many values. -/
theorem Inverts.flatMap_append_inj (inverts : Inverts parse valid encode)
    {first second : List α} (sameLength : first.length = second.length)
    (firstValid : ∀ value ∈ first, valid value)
    (secondValid : ∀ value ∈ second, valid value) {rest other : List β}
    (same : first.flatMap encode ++ rest = second.flatMap encode ++ other) :
    first = second ∧ rest = other := by
  induction first generalizing second with
  | nil =>
      obtain rfl := List.length_eq_zero_iff.mp sameLength.symm
      exact ⟨rfl, same⟩
  | cons value values inductionHypothesis =>
      cases second with
      | nil => exact absurd sameLength nofun
      | cons value' values' =>
          rw [List.flatMap_cons, List.flatMap_cons, List.append_assoc,
            List.append_assoc] at same
          rw [List.forall_mem_cons] at firstValid secondValid
          obtain ⟨rfl, rests⟩ :=
            inverts.append_inj firstValid.1 secondValid.1 same
          obtain ⟨rfl, ends⟩ := inductionHypothesis
            (Nat.succ.inj sameLength) firstValid.2 secondValid.2 rests
          exact ⟨rfl, ends⟩

/-- Every list of valid values is read back. -/
theorem Inverts.parseAll_flatMap (inverts : Inverts parse valid encode)
    {values : List α} (allValid : ∀ value ∈ values, valid value)
    {fuel : Nat} (enough : values.length ≤ fuel) :
    parseAll parse fuel (values.flatMap encode) = some values := by
  induction values generalizing fuel with
  | nil => cases fuel <;> rfl
  | cons value values inductionHypothesis =>
      cases fuel with
      | zero => exact absurd enough (Nat.not_succ_le_zero _)
      | succ fuel =>
          rw [List.forall_mem_cons] at allValid
          have rest := inductionHypothesis allValid.2
            (Nat.le_of_succ_le_succ enough)
          have first := inverts.complete value (values.flatMap encode)
            allValid.1
          rw [List.flatMap_cons]
          cases bytes : encode value with
          | nil => exact absurd bytes (inverts.nonempty value)
          | cons item items =>
              rw [bytes] at first
              rw [List.cons_append] at first ⊢
              rw [parseAll, first]
              dsimp only
              rw [rest]
              rfl

/-- What is read is the encoding of valid values. -/
theorem Inverts.eq_flatMap_of_parseAll (inverts : Inverts parse valid encode)
    {items : List β} {fuel : Nat} {values : List α}
    (parsed : parseAll parse fuel items = some values) :
    (∀ value ∈ values, valid value) ∧ items = values.flatMap encode := by
  induction fuel generalizing items values with
  | zero =>
      cases items with
      | nil =>
          obtain rfl := Option.some.inj parsed
          exact ⟨nofun, rfl⟩
      | cons item items => exact absurd parsed nofun
  | succ fuel inductionHypothesis =>
      cases items with
      | nil =>
          obtain rfl := Option.some.inj parsed
          exact ⟨nofun, rfl⟩
      | cons item items =>
          rw [parseAll] at parsed
          split at parsed
          · exact absurd parsed nofun
          · rename_i value rest read
            obtain ⟨others, parsedRest, rfl⟩ := Option.map_eq_some_iff.mp parsed
            obtain ⟨firstValid, parts⟩ := inverts.sound _ _ _ read
            obtain ⟨restValid, rests⟩ := inductionHypothesis parsedRest
            refine ⟨List.forall_mem_cons.mpr ⟨firstValid, restValid⟩, ?_⟩
            rw [List.flatMap_cons, ← rests, parts]

end RepeatedFormat
