import UIoT.Library.JsonSyntax

/-!
# Texts with a blank behind each comma and colon

A writer that joins the texts of members or elements with a comma and a blank
writes an object or an array of them.
-/

namespace JsonSyntax

/-- One blank. -/
def Blanks.space : Blanks := ⟨[32], by simp⟩

/-- A member with a blank behind its colon and behind a comma that follows. -/
def Member.spaced (key : List StringItem) (value : Value) : Member Value :=
  ⟨key, .none, .space, value, .none, .space⟩

/-- An element with a blank behind a comma that follows. -/
def Element.spaced (value : Value) : Element Value := ⟨value, .none, .space⟩

theorem memberText_spaced (key : List StringItem) (value : Value) :
    memberText (.spaced key value) =
      34 :: (rawText key ++ 34 :: 58 :: 32 :: value.text) := by
  rw [memberText_eq]
  simp [Member.spaced, Blanks.none, Blanks.space]

theorem elementText_spaced (value : Value) :
    elementText (.spaced value) = value.text := by
  rw [Element.spaced, elementText]
  simp [Blanks.none]

/-- Texts, and a comma and a blank between any two of them. -/
def joined {α : Type} (text : α → List UInt8) : List α → List UInt8
  | [] => []
  | first :: rest =>
      text first ++ rest.flatMap fun item => 44 :: 32 :: text item

section Joined

variable {α : Type} {text : α → List UInt8}

theorem joined_cons_cons (first second : α) (rest : List α) :
    joined text (first :: second :: rest) =
      text first ++ 44 :: 32 :: joined text (second :: rest) := by
  rw [joined, joined, List.flatMap_cons]
  simp

/-- Where each item is written as a member, all of them are. -/
theorem exists_members {writes : α → Member Value → Prop} {items : List α}
    (each : ∀ item ∈ items, ∃ member, writes item member ∧
      memberText member = text item ∧ member.between = .space) :
    ∃ members, List.Forall₂ writes items members ∧
      membersText members = joined text items := by
  induction items with
  | nil => exact ⟨[], .nil, by rw [membersText, joined]⟩
  | cons first rest inductionHypothesis =>
      obtain ⟨first_each, rest_each⟩ := List.forall_mem_cons.mp each
      obtain ⟨member, written, same, between⟩ := first_each
      obtain ⟨members, all, same_rest⟩ := inductionHypothesis rest_each
      refine ⟨member :: members, .cons written all, ?_⟩
      cases all with
      | nil => rw [membersText, same, joined, List.flatMap_nil, List.append_nil]
      | cons second others =>
          rw [membersText, same_rest, same, between, joined_cons_cons]
          rfl

/-- Where each item is written as an element, all of them are. -/
theorem exists_elements {writes : α → Element Value → Prop} {items : List α}
    (each : ∀ item ∈ items, ∃ element, writes item element ∧
      elementText element = text item ∧ element.between = .space) :
    ∃ elements, List.Forall₂ writes items elements ∧
      elementsText elements = joined text items := by
  induction items with
  | nil => exact ⟨[], .nil, by rw [elementsText, joined]⟩
  | cons first rest inductionHypothesis =>
      obtain ⟨first_each, rest_each⟩ := List.forall_mem_cons.mp each
      obtain ⟨element, written, same, between⟩ := first_each
      obtain ⟨elements, all, same_rest⟩ := inductionHypothesis rest_each
      refine ⟨element :: elements, .cons written all, ?_⟩
      cases all with
      | nil =>
          rw [elementsText, same, joined, List.flatMap_nil, List.append_nil]
      | cons second others =>
          rw [elementsText, same_rest, same, between, joined_cons_cons]
          rfl

end Joined

end JsonSyntax
