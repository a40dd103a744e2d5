import UIoT.Utils.List
import Mathlib.Data.List.Range
import Mathlib.Data.List.Perm.Basic

/-!
# Nodes and the heap

Pushing a node allocates it, removing it frees it, and writing pointers and
values does neither.  So every node that was ever pushed is linked or was freed,
and was freed once.
-/

namespace UIoT
namespace LinkedList

variable {α : Type} {list after : LinkedList α} {node : Nat}

/-! ## What is allocated -/

/-- Nothing was allocated or freed. -/
def SameHeap (list after : LinkedList α) : Prop :=
  ∀ other, (after.nodes other).isSome = (list.nodes other).isSome

theorem SameHeap.trans {middle : LinkedList α} (first : list.SameHeap middle)
    (second : middle.SameHeap after) : list.SameHeap after :=
  fun other => (second other).trans (first other)

theorem sameHeap_write {cell : ListNode α} (found : list.nodes node = some cell)
    (written : ListNode α) : list.SameHeap (list.write node written) := by
  intro other
  by_cases same : other = node
  · subst same
    simp [write, found]
  · simp [write, same]

theorem setNext_sameHeap {next : Option Nat}
    (done : list.setNext node next = some after) : list.SameHeap after := by
  obtain ⟨cell, found, rfl⟩ := Option.map_eq_some_iff.mp done
  exact sameHeap_write found { cell with next }

theorem setPrev_sameHeap {prev : Option Nat}
    (done : list.setPrev node prev = some after) : list.SameHeap after := by
  obtain ⟨cell, found, rfl⟩ := Option.map_eq_some_iff.mp done
  exact sameHeap_write found { cell with prev }

theorem setVal_sameHeap {val : α}
    (done : list.setVal node val = some after) : list.SameHeap after := by
  obtain ⟨cell, found, rfl⟩ := Option.map_eq_some_iff.mp done
  exact sameHeap_write found { cell with val }

theorem assignNext_sameHeap {prev next : Option Nat}
    (done : list.assignNext prev next = some after) : list.SameHeap after := by
  cases prev with
  | none =>
      obtain rfl := Option.some.inj done
      exact fun _ => rfl
  | some node => exact setNext_sameHeap done

theorem assignPrev_sameHeap {next prev : Option Nat}
    (done : list.assignPrev next prev = some after) : list.SameHeap after := by
  cases next with
  | none =>
      obtain rfl := Option.some.inj done
      exact fun _ => rfl
  | some node => exact setPrev_sameHeap done

/-- Pushing links a node that is already allocated. -/
theorem listRpush_sameHeap (done : list.listRpush node = some after) :
    list.SameHeap after := by
  unfold listRpush at done
  by_cases zero : list.len = 0
  · rw [if_neg (not_not_intro zero)] at done
    simp only [Option.bind_eq_bind, Option.bind_eq_some_iff] at done
    obtain ⟨first, nexted, second, preved, counted⟩ := done
    obtain rfl := Option.some.inj counted
    have heap : list.SameHeap second :=
      (setNext_sameHeap nexted).trans (setPrev_sameHeap preved)
    exact heap
  · rw [if_pos zero] at done
    simp only [Option.bind_eq_bind, Option.bind_eq_some_iff] at done
    obtain ⟨first, preved, second, nexted, tail, _, third, linked, fourth,
      ended, counted⟩ := done
    obtain rfl := Option.some.inj ended
    obtain rfl := Option.some.inj counted
    have heap : list.SameHeap third :=
      ((setPrev_sameHeap preved).trans (setNext_sameHeap nexted)).trans
        (setNext_sameHeap linked)
    exact heap

/-- Removing a node frees it and no other. -/
theorem listRemove_isSome (done : list.listRemove node = some after)
    (other : Nat) :
    (after.nodes other).isSome ↔
      other ≠ node ∧ (list.nodes other).isSome := by
  unfold listRemove at done
  simp only [Option.bind_eq_bind, Option.bind_eq_some_iff] at done
  obtain ⟨cell, _, first, assigned, cell', _, second, assigned_prev, freed⟩ :=
    done
  obtain rfl := Option.some.inj freed
  have heap := (assignNext_sameHeap assigned).trans
    (assignPrev_sameHeap assigned_prev)
  by_cases same : other = node
  · subst same
    simp [free]
  · have kept : (second.free node).nodes other = second.nodes other :=
      Function.update_of_ne same ..
    rw [kept, heap other]
    exact (and_iff_right same).symm

/-! ## Accounting for the nodes -/

/-- Every node pushed so far, at an address below `heapTop`, is linked or was
freed, and that once.  The linked ones are those that are allocated. -/
structure Accounted (list : LinkedList α) (freed : List Nat) (heapTop : Nat)
    (entries : List (Nat × α)) : Prop where
  consistent : list.Consistent entries
  allocated : ∀ node, (list.nodes node).isSome ↔ node ∈ entries.map Prod.fst
  once : (freed ++ entries.map Prod.fst).Perm (List.range heapTop)

namespace Accounted

variable {freed : List Nat} {heapTop : Nat} {entries : List (Nat × α)}

/-- Nothing was pushed yet. -/
theorem listNew : (listNew fun _ => none : LinkedList α).Accounted [] 0 [] where
  consistent := ⟨listNew_holds _, rfl⟩
  allocated := fun _ => by simp [LinkedList.listNew]
  once := .nil

/-- A node that was pushed and not freed is linked. -/
theorem mem_of_not_freed (accounted : list.Accounted freed heapTop entries)
    (pushed : node < heapTop) (kept : node ∉ freed) :
    node ∈ entries.map Prod.fst :=
  (List.mem_append.mp
    (accounted.once.mem_iff.mpr (List.mem_range.mpr pushed))).resolve_left kept

/-- A freed node is not allocated. -/
theorem nodes_of_freed (accounted : list.Accounted freed heapTop entries)
    (gone : node ∈ freed) : list.nodes node = none := by
  have nodup := accounted.once.nodup_iff.mpr List.nodup_range
  have absent : node ∉ entries.map Prod.fst := fun mem =>
    (List.nodup_append.mp nodup).2.2 node gone node mem rfl
  exact Option.not_isSome_iff_eq_none.mp
    (mt (accounted.allocated node).mp absent)

/-- The next address is free. -/
theorem nodes_heapTop (accounted : list.Accounted freed heapTop entries) :
    list.nodes heapTop = none := by
  have absent : heapTop ∉ entries.map Prod.fst := fun mem =>
    Nat.lt_irrefl heapTop (List.mem_range.mp
      (accounted.once.mem_iff.mp (List.mem_append_right freed mem)))
  exact Option.not_isSome_iff_eq_none.mp
    (mt (accounted.allocated heapTop).mp absent)

/-- Writing a value leaves the account as it is. -/
theorem setVal {front back : List (Nat × α)} {entry : Nat × α}
    (accounted : list.Accounted freed heapTop (front ++ entry :: back))
    (val : α) :
    ∃ after, list.setVal entry.1 val = some after ∧
      after.Accounted freed heapTop (front ++ (entry.1, val) :: back) := by
  obtain ⟨after, written, still, -⟩ :=
    setVal_holds accounted.consistent.holds val
  have addresses : (front ++ (entry.1, val) :: back).map Prod.fst =
      (front ++ entry :: back).map Prod.fst := by simp
  have small := accounted.consistent.small
  refine ⟨after, written, still.consistent ?_, fun node => ?_, ?_⟩
  · rw [List.length_append, List.length_cons] at small ⊢
    exact small
  · rw [addresses, setVal_sameHeap written node]
    exact accounted.allocated node
  · rw [addresses]
    exact accounted.once

/-- A linked node that is removed was freed. -/
theorem listRemove {front back : List (Nat × α)} {entry : Nat × α}
    (accounted : list.Accounted freed heapTop (front ++ entry :: back)) :
    ∃ after, list.listRemove entry.1 = some after ∧
      after.Accounted (entry.1 :: freed) heapTop (front ++ back) := by
  obtain ⟨after, removed, still, -⟩ :=
    listRemove_holds accounted.consistent.holds
  have small := accounted.consistent.small
  have moved : (entry.1 :: freed ++ (front ++ back).map Prod.fst).Perm
      (freed ++ (front ++ entry :: back).map Prod.fst) := by
    rw [List.map_append, List.map_append, List.map_cons, List.cons_append,
      ← List.append_assoc, ← List.append_assoc]
    exact List.perm_middle.symm
  have nodup := (moved.trans accounted.once).nodup_iff.mpr List.nodup_range
  have absent : entry.1 ∉ (front ++ back).map Prod.fst := fun mem =>
    (List.nodup_cons.mp nodup).1 (List.mem_append_right freed mem)
  refine ⟨after, removed, still.consistent ?_, fun node => ?_,
    moved.trans accounted.once⟩
  · rw [List.length_append, List.length_cons] at small
    rw [List.length_append]
    omega
  · rw [listRemove_isSome removed, accounted.allocated]
    constructor
    · rintro ⟨other, mem⟩
      rw [List.map_append, List.map_cons, List.mem_append, List.mem_cons] at mem
      rw [List.map_append, List.mem_append]
      exact mem.imp_right (Or.resolve_left · other)
    · intro mem
      refine ⟨fun same => absent (same ▸ mem), ?_⟩
      rw [List.map_append, List.mem_append] at mem
      rw [List.map_append, List.map_cons, List.mem_append, List.mem_cons]
      exact mem.imp_right .inr

/-- A node pushed at the next address is linked. -/
theorem listRpush (accounted : list.Accounted freed heapTop entries) {val : α}
    (pushed : (list.listNodeNew heapTop val).listRpush heapTop = some after)
    (consistent : after.Consistent (entries ++ [(heapTop, val)])) :
    after.Accounted freed (heapTop + 1) (entries ++ [(heapTop, val)]) where
  consistent
  allocated := fun node => by
    rw [listRpush_sameHeap pushed node, List.map_append, List.mem_append,
      ← accounted.allocated node]
    by_cases same : node = heapTop
    · simp [listNodeNew, same]
    · simp [listNodeNew, same]
  once := by
    rw [List.map_append, ← List.append_assoc, List.range_succ]
    exact accounted.once.append_right _

end Accounted

end LinkedList
end UIoT
