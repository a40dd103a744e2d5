import Mathlib.Data.List.Nodup
import Mathlib.Data.List.Perm.Subperm

/-!
# Custody of numbered things

Things are handed out under numbers of their own.  Each is held, or has been
freed, or is lost.  What is held or freed after a step is part of what was held
or freed before it and of what the step has handed out; then nothing that is
held has been freed, and nothing is freed twice.
-/

namespace Custody

/-- What is held, what has been freed, and the first number that was not handed
out. -/
structure State where
  held : List Nat
  freed : List Nat
  top : Nat

/-- Nothing is held twice, freed twice, or held and freed. -/
structure Safe (s : State) : Prop where
  nodup : (s.held ++ s.freed).Nodup
  lt : ∀ number ∈ s.held ++ s.freed, number < s.top

/-- A step that hands out fresh numbers. -/
structure Moves (s s' : State) (fresh : List Nat) : Prop where
  things : (s'.held ++ s'.freed).Subperm (s.held ++ s.freed ++ fresh)
  nodup : fresh.Nodup
  range : ∀ number ∈ fresh, s.top ≤ number ∧ number < s'.top
  top : s.top ≤ s'.top

theorem Safe.moves {s s' : State} (safe : Safe s) {fresh : List Nat}
    (moves : Moves s s' fresh) : Safe s' := by
  have all : (s.held ++ s.freed ++ fresh).Nodup := by
    refine List.nodup_append.mpr ⟨safe.nodup, moves.nodup, ?_⟩
    intro old mem new freshMem same
    have below := safe.lt old mem
    have above := (moves.range new freshMem).1
    omega
  obtain ⟨part, same, within⟩ := moves.things
  refine ⟨same.nodup_iff.mp (all.sublist within), fun number mem => ?_⟩
  rcases List.mem_append.mp (moves.things.subset mem) with old | new
  · exact Nat.lt_of_lt_of_le (safe.lt number old) moves.top
  · exact (moves.range number new).2

/-- A step that hands out nothing. -/
theorem Moves.of_subperm {s s' : State} (top : s.top ≤ s'.top)
    (things : (s'.held ++ s'.freed).Subperm (s.held ++ s.freed)) :
    Moves s s' [] :=
  ⟨(List.append_nil (s.held ++ s.freed)).symm ▸ things, List.nodup_nil,
    List.forall_mem_nil _, top⟩

/-- A step that hands out one number, which is held or freed afterwards. -/
theorem Moves.of_fresh {s s' : State} {number : Nat}
    (range : s.top ≤ number ∧ number < s'.top)
    (things : (s'.held ++ s'.freed).Subperm (number :: (s.held ++ s.freed))) :
    Moves s s' [number] :=
  ⟨things.trans (List.perm_append_singleton ..).symm.subperm,
    List.nodup_singleton number, List.forall_mem_singleton.mpr range,
    Nat.le_trans range.1 (Nat.le_of_lt range.2)⟩

end Custody
