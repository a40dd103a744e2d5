import Mathlib.Logic.Function.Basic
import Mathlib.Data.List.Basic

/-!
# Rings of the last values

An array written round and round: every value takes the place of the oldest one.
While nothing is read but whether a value is there, the array is the list of the
last values, as many as it has slots; slots never written hold a blank.
-/

namespace HistoryRing

universe u

variable {α : Type u} {capacity : Nat}

/-- An array and the place of the next write. -/
structure Ring (α : Type u) (capacity : Nat) where
  slots : Fin capacity → α
  position : Fin capacity

namespace Ring

/-- The place behind another one. -/
def following (position : Fin capacity) : Fin capacity :=
  ⟨(position + 1) % capacity,
    Nat.mod_lt _ (Nat.zero_lt_of_lt position.isLt)⟩

/-- Write a value in place of the oldest one. -/
def push (ring : Ring α capacity) (value : α) : Ring α capacity where
  slots := Function.update ring.slots ring.position value
  position := following ring.position

/-- How many writes ago a slot was written, where the next write is at the
position. -/
def age (position slot : Fin capacity) : Nat :=
  (position + (capacity - 1 - slot)) % capacity

/-- The slots hold the history, the newest value first, and blanks. -/
def Remembers (ring : Ring α capacity) (blank : α) (history : List α) : Prop :=
  ∀ slot, ring.slots slot = history.getD (age ring.position slot) blank

theorem age_lt (position slot : Fin capacity) :
    age position slot < capacity :=
  Nat.mod_lt _ (Nat.zero_lt_of_lt position.isLt)

/-- The slot just written is the newest one. -/
theorem age_following (position : Fin capacity) :
    age (following position) position = 0 := by
  have below := position.isLt
  have sum : position.val + 1 + (capacity - 1 - position.val) = capacity := by
    omega
  unfold age following
  dsimp only
  rw [Nat.mod_add_mod, sum, Nat.mod_self]

/-- Every other slot is one write older. -/
theorem age_following_of_ne {position slot : Fin capacity}
    (other : slot ≠ position) :
    age (following position) slot = age position slot + 1 := by
  have apart : slot.val ≠ position.val := fun same => other (Fin.ext same)
  have slotBelow := slot.isLt
  have below := position.isLt
  unfold age following
  dsimp only
  rw [Nat.mod_add_mod]
  rcases Nat.lt_or_gt_of_ne apart with before | behind
  · have wrapped : position.val + (capacity - 1 - slot.val) =
        position.val - slot.val - 1 + capacity := by omega
    have later : position.val + 1 + (capacity - 1 - slot.val) =
        position.val - slot.val + capacity := by omega
    rw [wrapped, later, Nat.add_mod_right, Nat.add_mod_right,
      Nat.mod_eq_of_lt (by omega), Nat.mod_eq_of_lt (by omega)]
    omega
  · rw [Nat.mod_eq_of_lt (by omega), Nat.mod_eq_of_lt (by omega)]
    omega

/-- Some slot was written so many writes ago. -/
theorem exists_age (position : Fin capacity) {writes : Nat}
    (recent : writes < capacity) : ∃ slot, age position slot = writes := by
  have below := position.isLt
  by_cases inFront : writes < position.val
  · refine ⟨⟨position.val - 1 - writes, by omega⟩, ?_⟩
    have sum : position.val + (capacity - 1 - (position.val - 1 - writes)) =
        writes + capacity := by omega
    unfold age
    dsimp only
    rw [sum, Nat.add_mod_right, Nat.mod_eq_of_lt recent]
  · refine ⟨⟨position.val + capacity - 1 - writes, by omega⟩, ?_⟩
    have sum : position.val +
        (capacity - 1 - (position.val + capacity - 1 - writes)) = writes := by
      omega
    unfold age
    dsimp only
    rw [sum, Nat.mod_eq_of_lt recent]

/-- An array of blanks remembers nothing. -/
theorem remembers_nil {ring : Ring α capacity} {blank : α}
    (blanks : ∀ slot, ring.slots slot = blank) : ring.Remembers blank [] :=
  blanks

/-- A write adds to the history. -/
theorem Remembers.push {ring : Ring α capacity} {blank : α} {history : List α}
    (remembers : ring.Remembers blank history) (value : α) :
    (ring.push value).Remembers blank (value :: history) := by
  intro slot
  by_cases same : slot = ring.position
  · rw [same, Ring.push, age_following]
    exact Function.update_self ..
  · have older := age_following_of_ne same
    rw [Ring.push, older, List.getD_cons_succ, ← remembers slot]
    exact Function.update_of_ne same ..

/-- A value is in the array exactly if it is among the last ones. -/
theorem Remembers.mem_iff {ring : Ring α capacity} {blank : α}
    {history : List α} (remembers : ring.Remembers blank history) {value : α}
    (written : value ≠ blank) :
    (∃ slot, ring.slots slot = value) ↔ value ∈ history.take capacity := by
  constructor
  · rintro ⟨slot, holds⟩
    rw [remembers slot] at holds
    have recent := age_lt ring.position slot
    have found : history[age ring.position slot]? = some value := by
      rw [List.getD_eq_getElem?_getD] at holds
      cases entry : history[age ring.position slot]? with
      | none =>
          rw [entry] at holds
          exact absurd holds.symm written
      | some other =>
          rw [entry] at holds
          exact congrArg some holds
    apply List.mem_of_getElem?
    rw [List.getElem?_take_of_lt recent]
    exact found
  · intro mem
    obtain ⟨writes, found⟩ := List.mem_iff_getElem?.mp mem
    have recent : writes < capacity := by
      have short := (List.getElem?_eq_some_iff.mp found).1
      exact Nat.lt_of_lt_of_le short (List.length_take_le ..)
    rw [List.getElem?_take_of_lt recent] at found
    obtain ⟨slot, aged⟩ := exists_age ring.position recent
    refine ⟨slot, ?_⟩
    rw [remembers slot, aged, List.getD_eq_getElem?_getD, found]
    rfl

end Ring

end HistoryRing
