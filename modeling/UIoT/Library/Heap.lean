import Mathlib.Data.List.Nodup
import Mathlib.Data.List.Perm.Basic
import Mathlib.Data.List.ReduceOption

/-!
# Heaps of blocks

A heap knows which blocks are live.  Blocks are handed out once and under
numbers of their own; releasing one that is not live has no outcome, while
releasing no block at all is allowed.  A call owns the blocks it was handed and
has not released: what it owns at its end has leaked or been handed on.
-/

/-- The live blocks, and the first number that was not handed out. -/
structure Heap where
  live : List Nat
  next : Nat
  nodup : live.Nodup
  old : ∀ block ∈ live, block < next

namespace Heap

/-- Hand out a block. -/
def alloc (h : Heap) : Heap where
  live := h.next :: h.live
  next := h.next + 1
  nodup := List.nodup_cons.mpr
    ⟨fun mem => Nat.lt_irrefl _ (h.old _ mem), h.nodup⟩
  old := fun block mem => by
    rcases List.mem_cons.mp mem with rfl | older
    · exact Nat.lt_succ_self _
    · exact Nat.lt_succ_of_lt (h.old block older)

/-- Take a block off the live ones. -/
def release (h : Heap) (block : Nat) : Heap where
  live := h.live.erase block
  next := h.next
  nodup := h.nodup.erase block
  old := fun other mem => h.old other (List.mem_of_mem_erase mem)

/-- Release what a pointer refers to: nothing for the null pointer, and there is
no outcome where it refers to no live block. -/
def free (h : Heap) : Option Nat → Option Heap
  | none => some h
  | some block => if block ∈ h.live then some (h.release block) else none

/-- Release what some pointers refer to, one after the other. -/
def freeAll (h : Heap) (pointers : List (Option Nat)) : Option Heap :=
  pointers.foldlM free h

/-- Go on with a block if there is memory for it, and give up otherwise. -/
def claim {ρ : Type} (h : Heap) (granted : Bool) (giveUp : Heap → ρ)
    (goOn : Nat → Heap → ρ) : ρ :=
  if granted then goOn h.next h.alloc else giveUp h

@[simp] theorem freeAll_nil (h : Heap) : h.freeAll [] = some h := rfl

theorem freeAll_cons (h : Heap) (pointer : Option Nat)
    (pointers : List (Option Nat)) :
    h.freeAll (pointer :: pointers) =
      (h.free pointer).bind fun h => h.freeAll pointers := rfl

/-! ## Owning blocks -/

/-- Since the start, the call has been handed the blocks and still has them; the
others are those that were live at the start. -/
structure Owns (start : Heap) (owned : List Nat) (h : Heap) : Prop where
  live : h.live.Perm (owned ++ start.live)
  next : start.next ≤ h.next

namespace Owns

variable {start h : Heap} {owned : List Nat}

/-- At its start a call owns nothing. -/
theorem refl (h : Heap) : Owns h [] h := ⟨.refl _, Nat.le_refl _⟩

/-- What is owned was handed out since the start. -/
theorem recent (owns : Owns start owned h) :
    ∀ block ∈ owned, block ∉ start.live := by
  have nodup := owns.live.nodup_iff.mp h.nodup
  intro block mem older
  exact (List.nodup_append.mp nodup).2.2 block mem block older rfl

/-- A block that is handed out is owned. -/
theorem alloc (owns : Owns start owned h) :
    Owns start (h.next :: owned) h.alloc :=
  ⟨owns.live.cons _, Nat.le_succ_of_le owns.next⟩

/-- The order of what is owned is of no account. -/
theorem perm (owns : Owns start owned h) {other : List Nat}
    (same : owned.Perm other) : Owns start other h :=
  ⟨owns.live.trans (same.append_right _), owns.next⟩

/-- What is owned can be released. -/
theorem free (owns : Owns start owned h) {block : Nat} (mem : block ∈ owned) :
    ∃ h', h.free (some block) = some h' ∧
      Owns start (owned.erase block) h' := by
  have isLive : block ∈ h.live :=
    owns.live.mem_iff.mpr (List.mem_append_left _ mem)
  refine ⟨h.release block, if_pos isLive, ?_, owns.next⟩
  have erased := owns.live.erase block
  rwa [List.erase_append_left _ mem] at erased

/-- Pointers to what is owned can be released one after the other, null
pointers among them, and the other blocks are kept. -/
theorem freeAll {pointers : List (Option Nat)} {kept : List Nat}
    (owns : Owns start owned h)
    (all : (pointers.reduceOption ++ kept).Perm owned) :
    ∃ h', h.freeAll pointers = some h' ∧ Owns start kept h' := by
  induction pointers generalizing h owned with
  | nil => exact ⟨h, rfl, owns.perm all.symm⟩
  | cons pointer pointers inductionHypothesis =>
      cases pointer with
      | none =>
          rw [List.reduceOption_cons_of_none] at all
          obtain ⟨h', freed, owns'⟩ := inductionHypothesis owns all
          exact ⟨h', freed, owns'⟩
      | some block =>
          rw [List.reduceOption_cons_of_some, List.cons_append] at all
          have mem : block ∈ owned := all.mem_iff.mp List.mem_cons_self
          obtain ⟨first, freed, rest⟩ := owns.free mem
          have others := all.erase block
          rw [List.erase_cons_head] at others
          obtain ⟨h', freedAll, owns'⟩ := inductionHypothesis rest others
          refine ⟨h', ?_, owns'⟩
          rw [freeAll_cons, freed]
          exact freedAll

/-- What a claim comes to: the block is owned, or the call gives up. -/
theorem claim {ρ : Type} {post : ρ → Prop} (owns : Owns start owned h)
    {granted : Bool} {giveUp : Heap → ρ} {goOn : Nat → Heap → ρ}
    (refused : granted = false → post (giveUp h))
    (claimed : granted = true → ∀ block h', Owns start (block :: owned) h' →
      post (goOn block h')) :
    post (h.claim granted giveUp goOn) := by
  unfold Heap.claim
  cases granted with
  | false => exact refused rfl
  | true => exact claimed rfl h.next h.alloc owns.alloc

/-- A part of a call that owns what it is handed adds to what the call owns. -/
theorem trans (first : Owns start owned h) {more : List Nat} {h' : Heap}
    (second : Owns h more h') : Owns start (more ++ owned) h' := by
  refine ⟨?_, Nat.le_trans first.next second.next⟩
  rw [List.append_assoc]
  exact second.live.trans (first.live.append_left more)

/-- The number of live blocks grows by those that are owned. -/
theorem length (owns : Owns start owned h) :
    h.live.length = owned.length + start.live.length := by
  rw [owns.live.length_eq, List.length_append]

end Owns

end Heap
