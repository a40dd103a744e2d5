import Mathlib.Data.List.Nodup
import Mathlib.Logic.Function.Basic

/-!
# Lists as maps

A list of elements with keys, read as a map: a key is looked up from the front,
and an element is added at the end.  While the keys are distinct the operations
on the list are those on the map.
-/

namespace KeyedList

universe u v

variable {α : Type u} {κ : Type v} [DecidableEq κ] (key : α → κ)

/-- The first element with the key. -/
def lookup (elements : List α) (name : κ) : Option α :=
  elements.find? fun element => key element = name

/-- The list without the first element with the key. -/
def remove (elements : List α) (name : κ) : List α :=
  elements.eraseP fun element => key element = name

/-- The list with its first element of the key changed. -/
def modify (change : α → α) (name : κ) : List α → List α
  | [] => []
  | element :: elements =>
      if key element = name then change element :: elements
      else element :: modify change name elements

/-- No two elements have the same key. -/
def Distinct (elements : List α) : Prop := (elements.map key).Nodup

variable {key}

theorem lookup_cons (element : α) (elements : List α) (name : κ) :
    lookup key (element :: elements) name =
      if key element = name then some element
      else lookup key elements name := by
  unfold lookup
  by_cases same : key element = name
  · rw [List.find?_cons_of_pos (by simpa using same), if_pos same]
  · rw [List.find?_cons_of_neg (by simpa using same), if_neg same]

theorem lookup_isSome_iff {elements : List α} {name : κ} :
    (lookup key elements name).isSome = true ↔ name ∈ elements.map key := by
  unfold lookup
  simp

theorem lookup_eq_none_iff {elements : List α} {name : κ} :
    lookup key elements name = none ↔ name ∉ elements.map key := by
  rw [← lookup_isSome_iff, Bool.not_eq_true, Option.isSome_eq_false_iff,
    Option.isNone_iff_eq_none]

/-! ## Adding -/

omit [DecidableEq κ] in
theorem distinct_append_iff {elements : List α} {element : α} :
    Distinct key (elements ++ [element]) ↔
      Distinct key elements ∧ key element ∉ elements.map key := by
  unfold Distinct
  rw [List.map_append, List.map_singleton, List.nodup_append_comm,
    List.singleton_append, List.nodup_cons, and_comm]

/-- An element with a new key is added to the map. -/
theorem lookup_append {elements : List α} {element : α}
    (new : key element ∉ elements.map key) :
    lookup key (elements ++ [element]) =
      Function.update (lookup key elements) (key element) (some element) := by
  funext name
  rw [lookup, List.find?_append]
  by_cases same : name = key element
  · subst same
    rw [Function.update_self, ← lookup, lookup_eq_none_iff.mpr new]
    simp
  · rw [Function.update_of_ne same, ← lookup]
    simp [Ne.symm same]

/-! ## Removing -/

theorem distinct_remove {elements : List α} (distinct : Distinct key elements)
    (name : κ) : Distinct key (remove key elements name) :=
  distinct.sublist (List.eraseP_sublist.map key)

/-- A key is removed from the map. -/
theorem lookup_remove {elements : List α} (distinct : Distinct key elements)
    (name : κ) :
    lookup key (remove key elements name) =
      Function.update (lookup key elements) name none := by
  induction elements with
  | nil =>
      funext other
      by_cases same : other = name
      · rw [same, Function.update_self]
        rfl
      · rw [Function.update_of_ne same]
        rfl
  | cons element elements inductionHypothesis =>
      obtain ⟨new, others⟩ := List.nodup_cons.mp distinct
      funext other
      by_cases first : key element = name
      · have gone : remove key (element :: elements) name = elements := by
          rw [remove, List.eraseP_cons_of_pos (by simpa using first)]
        rw [gone]
        by_cases same : other = name
        · rw [same, Function.update_self, lookup_eq_none_iff, ← first]
          exact new
        · rw [Function.update_of_ne same, lookup_cons,
            if_neg fun equal => same (equal.symm.trans first)]
      · have stays : remove key (element :: elements) name =
            element :: remove key elements name := by
          rw [remove, List.eraseP_cons_of_neg (by simpa using first), remove]
        rw [stays, lookup_cons, inductionHypothesis others]
        by_cases same : other = name
        · rw [same, Function.update_self, Function.update_self, if_neg first]
        · rw [Function.update_of_ne same, Function.update_of_ne same,
            lookup_cons]

/-! ## Changing -/

theorem map_key_modify {change : α → α}
    (keeps : ∀ element, key (change element) = key element) (name : κ)
    (elements : List α) :
    (modify key change name elements).map key = elements.map key := by
  induction elements with
  | nil => rfl
  | cons element elements inductionHypothesis =>
      unfold modify
      split
      · rw [List.map_cons, keeps, List.map_cons]
      · rw [List.map_cons, inductionHypothesis, List.map_cons]

/-- The element of a key is changed in the map. -/
theorem lookup_modify {change : α → α}
    (keeps : ∀ element, key (change element) = key element) (name : κ)
    (elements : List α) :
    lookup key (modify key change name elements) =
      Function.update (lookup key elements) name
        ((lookup key elements name).map change) := by
  induction elements with
  | nil =>
      funext other
      by_cases same : other = name
      · rw [same, Function.update_self]
        rfl
      · rw [Function.update_of_ne same]
        rfl
  | cons element elements inductionHypothesis =>
      funext other
      unfold modify
      by_cases first : key element = name
      · rw [if_pos first, lookup_cons, keeps, lookup_cons, if_pos first]
        by_cases same : other = name
        · rw [same, Function.update_self, if_pos first, Option.map_some]
        · have apart : key element ≠ other :=
            fun equal => same (equal.symm.trans first)
          rw [Function.update_of_ne same, if_neg apart, lookup_cons,
            if_neg apart]
      · rw [if_neg first, lookup_cons, inductionHypothesis, lookup_cons,
          if_neg first]
        by_cases same : other = name
        · rw [same, Function.update_self, Function.update_self, if_neg first]
        · rw [Function.update_of_ne same, Function.update_of_ne same,
            lookup_cons]

/-- Changing all elements changes all values of the map. -/
theorem lookup_map {change : α → α}
    (keeps : ∀ element, key (change element) = key element)
    (elements : List α) :
    lookup key (elements.map change) =
      fun name => (lookup key elements name).map change := by
  funext name
  induction elements with
  | nil => rfl
  | cons element elements inductionHypothesis =>
      rw [List.map_cons, lookup_cons, keeps, lookup_cons, inductionHypothesis]
      split
      · rfl
      · rfl

end KeyedList
