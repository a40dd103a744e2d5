import Mathlib.Data.List.Basic

/-!
# Level-wise matching

A filter is a sequence of level patterns and a name a sequence of levels.  A
pattern asks for one given level, for any one level, or for all levels that are
left.  Nothing here depends on what a level is; the last section writes
sequences of levels out with a separator between them.
-/

namespace Levels

universe u

/-- What a filter asks for at one level. -/
inductive LevelPattern (Level : Type u)
  | exactly (level : Level)
  | anyOne
  | anyRest
  deriving DecidableEq, Repr

section Matching

variable {Level : Type u}

open LevelPattern

/-- The names a filter matches.  The pattern for the rest also matches when
nothing is left. -/
def Matches : List (LevelPattern Level) → List Level → Prop
  | [], levels => levels = []
  | anyRest :: _, _ => True
  | _ :: _, [] => False
  | anyOne :: patterns, _ :: levels => Matches patterns levels
  | exactly level :: patterns, head :: levels =>
      level = head ∧ Matches patterns levels

instance decidableMatches [DecidableEq Level] :
    (patterns : List (LevelPattern Level)) → (levels : List Level) →
      Decidable (Matches patterns levels)
  | [], levels => inferInstanceAs (Decidable (levels = []))
  | anyRest :: _, [] => inferInstanceAs (Decidable True)
  | anyRest :: _, _ :: _ => inferInstanceAs (Decidable True)
  | exactly _ :: _, [] => inferInstanceAs (Decidable False)
  | anyOne :: _, [] => inferInstanceAs (Decidable False)
  | anyOne :: patterns, _ :: levels => decidableMatches patterns levels
  | exactly level :: patterns, head :: levels =>
      have := decidableMatches patterns levels
      inferInstanceAs (Decidable (level = head ∧ Matches patterns levels))

@[simp] theorem matches_nil (levels : List Level) :
    Matches [] levels ↔ levels = [] := Iff.rfl

@[simp] theorem matches_anyRest
    (patterns : List (LevelPattern Level)) (levels : List Level) :
    Matches (anyRest :: patterns) levels ↔ True := by
  cases levels <;> exact Iff.rfl

@[simp] theorem matches_anyOne_nil (patterns : List (LevelPattern Level)) :
    Matches (anyOne :: patterns) [] ↔ False := Iff.rfl

@[simp] theorem matches_exactly_nil
    (level : Level) (patterns : List (LevelPattern Level)) :
    Matches (exactly level :: patterns) [] ↔ False := Iff.rfl

@[simp] theorem matches_anyOne_cons
    (patterns : List (LevelPattern Level)) (head : Level)
    (levels : List Level) :
    Matches (anyOne :: patterns) (head :: levels) ↔
      Matches patterns levels := Iff.rfl

@[simp] theorem matches_exactly_cons
    (level : Level) (patterns : List (LevelPattern Level)) (head : Level)
    (levels : List Level) :
    Matches (exactly level :: patterns) (head :: levels) ↔
      level = head ∧ Matches patterns levels := Iff.rfl

/-- The pattern for the rest stands at the end only. -/
def RestLast : List (LevelPattern Level) → Prop
  | [] => True
  | [_] => True
  | pattern :: patterns => pattern ≠ anyRest ∧ RestLast patterns

instance decidableRestLast [DecidableEq Level] :
    (patterns : List (LevelPattern Level)) → Decidable (RestLast patterns)
  | [] => inferInstanceAs (Decidable True)
  | [_] => inferInstanceAs (Decidable True)
  | pattern :: next :: patterns =>
      have := decidableRestLast (next :: patterns)
      inferInstanceAs
        (Decidable (pattern ≠ anyRest ∧ RestLast (next :: patterns)))

/-- Behind a pattern for the rest there is nothing. -/
theorem RestLast.eq_nil
    {patterns : List (LevelPattern Level)}
    (restLast : RestLast (anyRest :: patterns)) :
    patterns = [] := by
  cases patterns with
  | nil => rfl
  | cons pattern patterns => exact absurd rfl restLast.1

theorem RestLast.tail
    {pattern : LevelPattern Level} {patterns : List (LevelPattern Level)}
    (restLast : RestLast (pattern :: patterns)) :
    RestLast patterns := by
  cases patterns with
  | nil => trivial
  | cons next patterns => exact restLast.2

theorem RestLast.of_append
    {front patterns : List (LevelPattern Level)}
    (restLast : RestLast (front ++ patterns)) :
    RestLast patterns := by
  induction front with
  | nil => exact restLast
  | cons pattern front inductionHypothesis =>
      exact inductionHypothesis restLast.tail

/-- In front of another pattern there is no pattern for the rest. -/
theorem RestLast.not_mem_left
    {front : List (LevelPattern Level)} {pattern : LevelPattern Level}
    {patterns : List (LevelPattern Level)}
    (restLast : RestLast (front ++ pattern :: patterns)) :
    anyRest ∉ front := by
  induction front with
  | nil => exact List.not_mem_nil
  | cons first front inductionHypothesis =>
      have others : RestLast (front ++ pattern :: patterns) := restLast.tail
      rw [List.mem_cons, not_or]
      refine ⟨?_, inductionHypothesis others⟩
      cases front <;> exact restLast.1.symm

/-- Behind its last level a name leaves nothing or the rest pattern to match. -/
theorem matches_nil_right_iff
    {patterns : List (LevelPattern Level)}
    (restLast : RestLast patterns) :
    Matches patterns [] ↔ patterns = [] ∨ patterns = [anyRest] := by
  cases patterns with
  | nil => simp
  | cons pattern patterns =>
      cases pattern with
      | exactly level => simp
      | anyOne => simp
      | anyRest => simp [restLast.eq_nil]

/-- A filter consisting of patterns for single levels matches a name level by
level. -/
theorem matches_append_iff
    {patterns : List (LevelPattern Level)} {levels : List Level}
    (first : Matches patterns levels) (single : anyRest ∉ patterns)
    (patterns' : List (LevelPattern Level)) (levels' : List Level) :
    Matches (patterns ++ patterns') (levels ++ levels') ↔
      Matches patterns' levels' := by
  induction patterns generalizing levels with
  | nil =>
      rw [matches_nil] at first
      rw [first, List.nil_append, List.nil_append]
  | cons pattern patterns inductionHypothesis =>
      rw [List.mem_cons, not_or] at single
      cases levels with
      | nil => cases pattern <;> simp_all
      | cons head levels =>
          cases pattern with
          | exactly level =>
              obtain ⟨rfl, first⟩ := first
              simp [inductionHypothesis first single.2]
          | anyOne => exact inductionHypothesis first single.2
          | anyRest => exact absurd rfl single.1

end Matching

/-! ## Writing levels out -/

section Separator

variable {α : Type u}

/-- Levels with the separator in front of each. -/
def behind (separator : α) (levels : List (List α)) : List α :=
  levels.flatMap (separator :: ·)

@[simp] theorem behind_nil (separator : α) :
    behind separator [] = [] := rfl

@[simp] theorem behind_cons
    (separator : α) (head : List α) (levels : List (List α)) :
    behind separator (head :: levels) =
      separator :: (head ++ behind separator levels) := rfl

/-- The written form starts with the first level. -/
theorem intercalate_cons
    (separator : α) (head : List α) (levels : List (List α)) :
    [separator].intercalate (head :: levels) =
      head ++ behind separator levels := by
  induction levels generalizing head with
  | nil => simp
  | cons next levels inductionHypothesis =>
      rw [List.intercalate_cons_cons, inductionHypothesis]
      simp

/-- A list is its first part and the separated others. -/
theorem intercalate_splitOn
    [DecidableEq α] (separator : α) {whole head : List α}
    {others : List (List α)}
    (parts : whole.splitOn separator = head :: others) :
    whole = head ++ behind separator others := by
  rw [← intercalate_cons, ← parts, List.intercalate_splitOn]

/-- The parts a separator cuts a list into do not contain it. -/
theorem separator_not_mem_of_mem_splitOn
    [DecidableEq α] {separator : α} {whole part : List α}
    (mem : part ∈ whole.splitOn separator) :
    separator ∉ part := by
  induction whole generalizing part with
  | nil =>
      rw [List.splitOn_nil, List.mem_singleton] at mem
      simp [mem]
  | cons head whole inductionHypothesis =>
      rw [List.splitOn_cons_eq_if_modifyHead] at mem
      obtain ⟨first, others, parts⟩ :=
        List.exists_cons_of_ne_nil (List.splitOn_ne_nil separator whole)
      rw [parts] at mem inductionHypothesis
      by_cases cut : head = separator
      · rw [if_pos (beq_iff_eq.mpr cut), List.mem_cons] at mem
        rcases mem with rfl | mem
        · exact List.not_mem_nil
        · exact inductionHypothesis mem
      · rw [if_neg (by simpa using cut), List.modifyHead_cons,
          List.mem_cons] at mem
        rcases mem with rfl | mem
        · rw [List.mem_cons, not_or]
          exact ⟨Ne.symm cut, inductionHypothesis List.mem_cons_self⟩
        · exact inductionHypothesis (List.mem_cons_of_mem _ mem)

end Separator

end Levels
