import UIoT.Utils.ListEnds

/-!
# Lists as sequences

`list_find`, `list_at` and loops over a list, and what any sequence of pushes,
pops and removals makes of it: the list is the sequence that the corresponding
operations on sequences yield.
-/

namespace UIoT

/-- The entries in the order in which an iterator goes through them. -/
def ListDirection.ordered {β : Type} : ListDirection → List β → List β
  | .head, entries => entries
  | .tail, entries => entries.reverse

theorem ListDirection.ordered_ordered {β : Type} (direction : ListDirection)
    (entries : List β) :
    direction.ordered (direction.ordered entries) = entries := by
  cases direction with
  | head => rfl
  | tail => exact List.reverse_reverse entries

theorem ListDirection.ordered_filter {β : Type} (direction : ListDirection)
    (entries : List β) (keeps : β → Bool) :
    direction.ordered ((direction.ordered entries).filter keeps) =
      entries.filter keeps := by
  cases direction with
  | head => rfl
  | tail =>
      have reversed : (entries.reverse.filter keeps).reverse = _ :=
        List.filter_reverse.symm
      rw [List.reverse_reverse] at reversed
      exact reversed

namespace LinkedList

variable {α : Type}

/-! ## Looking through a list -/

/-- A loop over a list: the nodes its iterator returns, of which some are
removed before the next step. -/
def enumerate (removes : Nat → Bool) :
    (turns : Nat) → LinkedList α → ListIterator →
      Option (List Nat × LinkedList α)
  | 0, _, _ => none
  | turns + 1, list, iterator => do
      let (node, iterator) ← list.listIteratorNext iterator
      match node with
      | none => some ([], list)
      | some node =>
          let list ← if removes node then list.listRemove node else some list
          let (nodes, list) ← enumerate removes turns list iterator
          some (node :: nodes, list)

/-- A loop over the whole list, in one turn for each node and one more. -/
def enumerateAll (list : LinkedList α) (direction : ListDirection)
    (removes : Nat → Bool) : Option (List Nat × LinkedList α) :=
  enumerate removes (list.len.toNat + 1) list (list.listIteratorNew direction)

/-- The test in the loop of `list_find`: the list's `match`, if there is one,
and whether the pointers are equal otherwise. -/
def fits [DecidableEq α] (compares : Option (α → α → Bool)) (val other : α) :
    Bool :=
  match compares with
  | some compares => compares val other
  | none => val = other

/-- The loop of `list_find`. -/
def findLoop (list : LinkedList α) (fits : α → Bool) :
    (turns : Nat) → ListIterator → Option (Option Nat)
  | 0, _ => none
  | turns + 1, iterator => do
      let (node, iterator) ← list.listIteratorNext iterator
      match node with
      | none => some none
      | some node =>
          let cell ← list.nodes node
          if fits cell.val then some (some node)
          else findLoop list fits turns iterator

/-- `list_find` for a list with such a `match`; whether there is memory for an
iterator is up to `HAL_Malloc`. -/
def listFind [DecidableEq α] (list : LinkedList α) (allocates : Bool)
    (compares : Option (α → α → Bool)) (val : α) : Option (Option Nat) :=
  if allocates then
    list.findLoop (fits compares val) (list.len.toNat + 1)
      (list.listIteratorNew .head)
  else some none

/-- The loop of `list_at`. -/
def atLoop (list : LinkedList α) :
    (index : Nat) → (node : Option Nat) → ListIterator → Option (Option Nat)
  | 0, node, _ => some node
  | index + 1, _, iterator => do
      let (node, iterator) ← list.listIteratorNext iterator
      atLoop list index node iterator

/-- `list_at`; see `listFind` for the memory. -/
def listAt (list : LinkedList α) (allocates : Bool) (index : Int32) :
    Option (Option Nat) :=
  let direction : ListDirection := if index < 0 then .tail else .head
  let index := if index < 0 then ~~~index else index
  if index.toUInt32 < list.len then
    if allocates then do
      let (node, iterator) ←
        list.listIteratorNext (list.listIteratorNew direction)
      list.atLoop index.toUInt32.toNat node iterator
    else some none
  else some none

/-! ## Iterators -/

section Iterators

variable {list : LinkedList α} {direction : ListDirection}
  {entries kept rest : List (Nat × α)} {entry : Nat × α}

/-- An iterator that goes on with the first of these entries. -/
def iteratorAt (direction : ListDirection) (rest : List (Nat × α)) :
    ListIterator :=
  ⟨(rest.map Prod.fst).head?, direction⟩

/-- An iterator begins with the first entry of its order. -/
theorem listIteratorNew_ordered (holds : list.Holds entries) :
    list.listIteratorNew direction =
      iteratorAt direction (direction.ordered entries) := by
  cases direction with
  | head =>
      have first : list.head = _ := holds.ring.next_header
      rw [listIteratorNew, first]
      cases entries <;> rfl
  | tail =>
      rw [listIteratorNew_tail holds, iteratorAt, ListDirection.ordered,
        List.map_reverse, List.head?_reverse]

/-- Where an entry stands in the list. -/
theorem ordered_split (direction : ListDirection) (kept rest : List (Nat × α))
    (entry : Nat × α) :
    ∃ front back,
      direction.ordered (kept ++ entry :: rest) = front ++ entry :: back ∧
      direction.ordered (kept ++ rest) = front ++ back ∧
      match direction with
      | .head => back = rest
      | .tail => front = rest.reverse := by
  cases direction with
  | head => exact ⟨kept, rest, rfl, rfl, rfl⟩
  | tail =>
      refine ⟨rest.reverse, kept.reverse, ?_, ?_, rfl⟩
      · simp [ListDirection.ordered]
      · simp [ListDirection.ordered]

/-- An iterator goes on with the next entry of its order. -/
theorem listIteratorNext_ordered
    (holds : list.Holds (direction.ordered (kept ++ entry :: rest))) :
    list.listIteratorNext (iteratorAt direction (entry :: rest)) =
        some (some entry.1, iteratorAt direction rest) ∧
      (list.nodes entry.1).map ListNode.val = some entry.2 := by
  obtain ⟨front, back, split, -, near⟩ :=
    ordered_split direction kept rest entry
  rw [split] at holds
  have found := holds.cell
  constructor
  · unfold listIteratorNext iteratorAt
    simp only [List.map_cons, List.head?_cons, found, Option.map_some]
    cases direction with
    | head =>
        obtain rfl : back = rest := near
        rfl
    | tail =>
        obtain rfl : front = rest.reverse := near
        rw [List.map_reverse, List.getLast?_reverse]
  · rw [found]
    rfl

/-- An iterator at its end stays there. -/
theorem listIteratorNext_end (list : LinkedList α) (direction : ListDirection) :
    list.listIteratorNext (iteratorAt direction ([] : List (Nat × α))) =
      some (none, iteratorAt direction ([] : List (Nat × α))) := rfl

/-- An entry is removed from any place of the list. -/
theorem listRemove_ordered
    (holds : list.Holds (direction.ordered (kept ++ entry :: rest))) :
    ∃ after, list.listRemove entry.1 = some after ∧
      after.Holds (direction.ordered (kept ++ rest)) := by
  obtain ⟨front, back, split, shorter, -⟩ :=
    ordered_split direction kept rest entry
  rw [split] at holds
  obtain ⟨after, removed, remains, -⟩ := listRemove_holds holds
  exact ⟨after, removed, shorter ▸ remains⟩

/-- A loop returns every entry, in its order, and leaves those that it does not
remove. -/
theorem enumerate_ordered (removes : Nat → Bool)
    (holds : list.Holds (direction.ordered (kept ++ rest))) {turns : Nat}
    (enough : rest.length < turns) :
    ∃ after, enumerate removes turns list (iteratorAt direction rest) =
        some (rest.map Prod.fst, after) ∧
      after.Holds (direction.ordered
        (kept ++ rest.filter fun entry => !removes entry.1)) := by
  induction rest generalizing list kept turns with
  | nil =>
      obtain ⟨turns, rfl⟩ := Nat.exists_eq_add_one.mpr enough
      refine ⟨list, ?_, holds⟩
      rw [enumerate, listIteratorNext_end]
      rfl
  | cons entry rest inductionHypothesis =>
      rw [List.length_cons] at enough
      obtain ⟨turns, rfl⟩ :=
        Nat.exists_eq_add_one.mpr (Nat.zero_lt_of_lt enough)
      have fewer : rest.length < turns := Nat.lt_of_succ_lt_succ enough
      obtain ⟨goes, -⟩ := listIteratorNext_ordered holds
      rw [enumerate, goes]
      cases removed : removes entry.1 with
      | true =>
          obtain ⟨middle, removal, remains⟩ := listRemove_ordered holds
          obtain ⟨after, later, left⟩ := inductionHypothesis remains fewer
          refine ⟨after, ?_, ?_⟩
          · simp [removed, removal, later]
          · rw [List.filter_cons_of_neg (by simp [removed])]
            exact left
      | false =>
          have whole : kept ++ entry :: rest = kept ++ [entry] ++ rest := by
            simp
          rw [whole] at holds
          obtain ⟨after, later, left⟩ := inductionHypothesis holds fewer
          refine ⟨after, ?_, ?_⟩
          · simp [removed, later]
          · rw [List.filter_cons_of_pos (by simp [removed])]
            rw [List.append_assoc] at left
            exact left

/-- The loop of `list_find` stops at the first entry that fits. -/
theorem findLoop_ordered (fits : α → Bool)
    (holds : list.Holds (direction.ordered (kept ++ rest))) {turns : Nat}
    (enough : rest.length < turns) :
    list.findLoop fits turns (iteratorAt direction rest) =
      some ((rest.find? fun entry => fits entry.2).map Prod.fst) := by
  induction rest generalizing kept turns with
  | nil =>
      obtain ⟨turns, rfl⟩ := Nat.exists_eq_add_one.mpr enough
      rw [findLoop, listIteratorNext_end]
      rfl
  | cons entry rest inductionHypothesis =>
      rw [List.length_cons] at enough
      obtain ⟨turns, rfl⟩ :=
        Nat.exists_eq_add_one.mpr (Nat.zero_lt_of_lt enough)
      have fewer : rest.length < turns := Nat.lt_of_succ_lt_succ enough
      obtain ⟨goes, value⟩ := listIteratorNext_ordered holds
      obtain ⟨cell, found, val⟩ := Option.map_eq_some_iff.mp value
      have whole : kept ++ entry :: rest = kept ++ [entry] ++ rest := by simp
      rw [whole] at holds
      have later := inductionHypothesis holds fewer
      rw [findLoop, goes]
      simp only [Option.bind_eq_bind, Option.bind_some, found, val]
      cases fit : fits entry.2 with
      | true =>
          rw [if_pos rfl, List.find?_cons, fit]
          rfl
      | false =>
          rw [if_neg Bool.false_ne_true, List.find?_cons, fit]
          exact later

/-- The loop of `list_at` goes on by so many entries. -/
theorem atLoop_ordered
    (holds : list.Holds (direction.ordered (kept ++ entry :: rest)))
    {index : Nat} (inside : index ≤ rest.length) :
    list.atLoop index (some entry.1) (iteratorAt direction rest) =
      some (((entry :: rest).map Prod.fst)[index]?) := by
  induction index generalizing kept entry rest with
  | zero => rfl
  | succ index inductionHypothesis =>
      cases rest with
      | nil => exact absurd inside (Nat.not_succ_le_zero _)
      | cons second rest =>
          have whole : kept ++ entry :: second :: rest =
              kept ++ [entry] ++ second :: rest := by simp
          rw [whole] at holds
          obtain ⟨goes, -⟩ := listIteratorNext_ordered holds
          rw [atLoop, goes]
          exact inductionHypothesis holds (Nat.le_of_succ_le_succ inside)

/-! ## The list as a sequence -/

/-- The element at an index, which counts from the end if it is negative. -/
def elementAt (nodes : List Nat) (index : Int) : Option Nat :=
  if 0 ≤ index then nodes[index.toNat]?
  else if -nodes.length ≤ index then nodes[(nodes.length + index).toNat]?
  else none

/-- The functions that look through a list see the sequence of these entries:
loops in either direction, also where they remove what they come across, and
the searches by value and by index, if there is memory for an iterator. -/
structure IsSequence [DecidableEq α] (list : LinkedList α)
    (entries : List (Nat × α)) : Prop where
  consistent : list.Consistent entries
  enumerates : ∀ (direction : ListDirection) (removes : Nat → Bool),
    ∃ after, list.enumerateAll direction removes =
        some ((direction.ordered entries).map Prod.fst, after) ∧
      after.Consistent (entries.filter fun entry => !removes entry.1)
  finds : ∀ (allocates : Bool) (compares : Option (α → α → Bool)) (val : α),
    list.listFind allocates compares val =
      some (if allocates then
        (entries.find? fun entry => fits compares val entry.2).map Prod.fst
      else none)
  at_index : ∀ (allocates : Bool) (index : Int32),
    list.listAt allocates index =
      some (if allocates then elementAt (entries.map Prod.fst) index.toInt
      else none)

theorem enumerateAll_ordered (consistent : list.Consistent entries)
    (direction : ListDirection) (removes : Nat → Bool) :
    ∃ after, list.enumerateAll direction removes =
        some ((direction.ordered entries).map Prod.fst, after) ∧
      after.Consistent (entries.filter fun entry => !removes entry.1) := by
  have length : (direction.ordered entries).length = entries.length := by
    cases direction with
    | head => rfl
    | tail => exact List.length_reverse
  have enough : (direction.ordered entries).length < list.len.toNat + 1 := by
    rw [length, consistent.counts]
    exact Nat.lt_succ_self _
  have holds := consistent.holds
  rw [← direction.ordered_ordered entries] at holds
  have whole : list.Holds
      (direction.ordered ([] ++ direction.ordered entries)) := holds
  obtain ⟨after, returns, left⟩ := enumerate_ordered removes whole enough
  rw [List.nil_append, direction.ordered_filter] at left
  refine ⟨after, ?_, left.consistent ?_⟩
  · rw [enumerateAll, listIteratorNew_ordered consistent.holds]
    exact returns
  · exact (List.length_filter_le _ _).trans_lt consistent.small

theorem listFind_ordered [DecidableEq α] (consistent : list.Consistent entries)
    (allocates : Bool) (compares : Option (α → α → Bool)) (val : α) :
    list.listFind allocates compares val =
      some (if allocates then
        (entries.find? fun entry => fits compares val entry.2).map Prod.fst
      else none) := by
  unfold listFind
  cases allocates with
  | false => rfl
  | true =>
      have enough : entries.length < list.len.toNat + 1 := by
        rw [consistent.counts]
        exact Nat.lt_succ_self _
      have whole : list.Holds (ListDirection.head.ordered ([] ++ entries)) :=
        consistent.holds
      rw [if_pos rfl, if_pos rfl, listIteratorNew_ordered consistent.holds]
      exact findLoop_ordered (fits compares val) whole enough

/-- `list_at` behind the choice of the direction. -/
theorem atLoop_first (consistent : list.Consistent entries)
    (direction : ListDirection) {index : Nat}
    (inside : index < entries.length) :
    (do
      let (node, iterator) ←
        list.listIteratorNext (list.listIteratorNew direction)
      list.atLoop index node iterator) =
      some (((direction.ordered entries).map Prod.fst)[index]?) := by
  have length : (direction.ordered entries).length = entries.length := by
    cases direction with
    | head => rfl
    | tail => exact List.length_reverse
  rw [listIteratorNew_ordered consistent.holds]
  have holds := consistent.holds
  rw [← direction.ordered_ordered entries] at holds
  cases order : direction.ordered entries with
  | nil =>
      rw [order] at length
      exact absurd (length ▸ inside) (Nat.not_lt_zero _)
  | cons entry rest =>
      rw [order] at holds length
      have whole : list.Holds (direction.ordered ([] ++ entry :: rest)) := holds
      obtain ⟨goes, -⟩ := listIteratorNext_ordered whole
      rw [goes]
      rw [List.length_cons] at length
      exact atLoop_ordered whole (by omega)

theorem toNat_toUInt32_of_nonneg {index : Int32} (nonneg : 0 ≤ index.toInt) :
    index.toUInt32.toNat = index.toInt.toNat :=
  Int32.toNat_toUInt32_of_le (Int32.le_iff_toInt_le.mpr nonneg)

/-- The complement of a negative index counts from the end. -/
theorem toInt_complement {index : Int32} (negative : index.toInt < 0) :
    (~~~index).toInt = -index.toInt - 1 := by
  have lower := index.le_toInt
  rw [Int32.toInt_not]
  exact Int.bmod_eq_of_le (by omega) (by omega)

/-- An index and what `list_at` makes of it: the number of steps to take. -/
theorem toUInt32_lt_len (consistent : list.Consistent entries) {index : Int32}
    (nonneg : 0 ≤ index.toInt) :
    index.toUInt32 < list.len ↔ index.toInt.toNat < entries.length := by
  rw [UInt32.lt_iff_toNat_lt, toNat_toUInt32_of_nonneg nonneg,
    consistent.counts]

theorem listAt_ordered (consistent : list.Consistent entries)
    (allocates : Bool) (index : Int32) :
    list.listAt allocates index =
      some (if allocates then elementAt (entries.map Prod.fst) index.toInt
      else none) := by
  have sign : index < 0 ↔ index.toInt < 0 := Int32.lt_iff_toInt_lt
  have length : (entries.map Prod.fst).length = entries.length :=
    List.length_map ..
  unfold listAt
  dsimp only
  cases allocates with
  | false =>
      rw [if_neg Bool.false_ne_true, ite_self]
      rfl
  | true =>
      rw [if_pos rfl, if_pos rfl]
      by_cases negative : index < 0
      · have below := sign.mp negative
        have complement := toInt_complement below
        have nonneg : 0 ≤ (~~~index).toInt := by omega
        rw [if_pos negative, if_pos negative, elementAt,
          if_neg (Int.not_le.mpr below), length]
        by_cases inside : (~~~index).toUInt32 < list.len
        · have small := (toUInt32_lt_len consistent nonneg).mp inside
          rw [if_pos inside, toNat_toUInt32_of_nonneg nonneg,
            atLoop_first consistent .tail small, if_pos (by omega),
            ListDirection.ordered, List.map_reverse,
            List.getElem?_reverse (length.symm ▸ small), length]
          congr 2
          omega
        · have large := mt (toUInt32_lt_len consistent nonneg).mpr inside
          rw [if_neg inside, if_neg (by omega)]
      · have nonneg : 0 ≤ index.toInt := Int.not_lt.mp (mt sign.mpr negative)
        rw [if_neg negative, if_neg negative, elementAt, if_pos nonneg]
        by_cases inside : index.toUInt32 < list.len
        · have small := (toUInt32_lt_len consistent nonneg).mp inside
          rw [if_pos inside, toNat_toUInt32_of_nonneg nonneg,
            atLoop_first consistent .head small, ListDirection.ordered]
        · have large := mt (toUInt32_lt_len consistent nonneg).mpr inside
          rw [if_neg inside, List.getElem?_eq_none (by omega)]

/-- A list that consists of these entries is the sequence of them. -/
theorem Consistent.isSequence [DecidableEq α]
    (consistent : list.Consistent entries) : list.IsSequence entries where
  consistent := consistent
  enumerates := enumerateAll_ordered consistent
  finds := listFind_ordered consistent
  at_index := listAt_ordered consistent

end Iterators

/-! ## Sequences of operations -/

/-- What a program does with a list; a node that is pushed comes with the value
it holds. -/
inductive Operation (α : Type)
  | nodeNew (node : Nat) (val : α)
  | rpush (node : Nat) (val : α)
  | lpush (node : Nat) (val : α)
  | rpop
  | lpop
  | remove (node : Nat)

namespace Operation

/-- The operation on the list: what it returns, and the list. -/
def perform (list : LinkedList α) :
    Operation α → Option (Option Nat × LinkedList α)
  | .nodeNew node val => some (some node, list.listNodeNew node val)
  | .rpush node _ => (list.listRpush node).map fun after => (some node, after)
  | .lpush node _ => (list.listLpush node).map fun after => (some node, after)
  | .rpop => list.listRpop
  | .lpop => list.listLpop
  | .remove node => (list.listRemove node).map fun after => (none, after)

/-- The operation on the sequence of the entries. -/
def apply (entries : List (Nat × α)) : Operation α → List (Nat × α)
  | .nodeNew _ _ => entries
  | .rpush node val => entries ++ [(node, val)]
  | .lpush node val => (node, val) :: entries
  | .rpop => entries.dropLast
  | .lpop => entries.tail
  | .remove node => entries.filter fun entry => entry.1 ≠ node

/-- What it returns. -/
def returned (entries : List (Nat × α)) : Operation α → Option Nat
  | .nodeNew node _ => some node
  | .rpush node _ => some node
  | .lpush node _ => some node
  | .rpop => entries.getLast?.map Prod.fst
  | .lpop => entries.head?.map Prod.fst
  | .remove _ => none

/-- A node is new at a free address, is pushed when it is allocated and in no
list, and is removed when it is in the list; and the list's counter has room. -/
def Admissible (list : LinkedList α) (entries : List (Nat × α)) :
    Operation α → Prop
  | .nodeNew node _ => list.nodes node = none
  | .rpush node val | .lpush node val =>
      (list.nodes node).map ListNode.val = some val ∧
        node ∉ entries.map Prod.fst ∧ entries.length + 1 < 2 ^ 32
  | .rpop | .lpop => True
  | .remove node => node ∈ entries.map Prod.fst

/-- All these operations, one after the other. -/
def performAll : List (Operation α) → LinkedList α →
    Option (List (Option Nat) × LinkedList α)
  | [], list => some ([], list)
  | operation :: operations, list => do
      let (result, list) ← operation.perform list
      let (results, list) ← performAll operations list
      some (result :: results, list)

/-- See `performAll`. -/
def applyAll (operations : List (Operation α)) (entries : List (Nat × α)) :
    List (Nat × α) :=
  operations.foldl apply entries

/-- See `performAll`. -/
def returnedAll : List (Operation α) → List (Nat × α) → List (Option Nat)
  | [], _ => []
  | operation :: operations, entries =>
      operation.returned entries ::
        returnedAll operations (operation.apply entries)

/-- Every operation is admissible where it is performed. -/
def AllAdmissible : List (Operation α) → LinkedList α → List (Nat × α) → Prop
  | [], _, _ => True
  | operation :: operations, list, entries =>
      operation.Admissible list entries ∧
        ∀ result after, operation.perform list = some (result, after) →
          AllAdmissible operations after (operation.apply entries)

end Operation

section Runs

variable {list : LinkedList α} {entries : List (Nat × α)}

theorem listRemove_filter (consistent : list.Consistent entries) {node : Nat}
    (member : node ∈ entries.map Prod.fst) :
    ∃ after, list.listRemove node = some after ∧
      after.Consistent (entries.filter fun entry => entry.1 ≠ node) := by
  obtain ⟨entry, listed, rfl⟩ := List.mem_map.mp member
  obtain ⟨front, back, rfl⟩ := List.append_of_mem listed
  obtain ⟨after, removed, holds, -⟩ := listRemove_holds consistent.holds
  have nodup := consistent.holds.nodup
  rw [List.map_append, List.map_cons] at nodup
  have absent := (List.nodup_cons.mp (List.nodup_middle.mp nodup)).1
  rw [← List.map_append] at absent
  have others : ∀ other ∈ front ++ back, decide (other.1 ≠ entry.1) = true := by
    intro other mem
    refine decide_eq_true fun same => absent ?_
    exact List.mem_map.mpr ⟨other, mem, same⟩
  have left : (front ++ entry :: back).filter
      (fun other => other.1 ≠ entry.1) = front ++ back := by
    rw [List.filter_append, List.filter_cons_of_neg (by simp),
      ← List.filter_append]
    exact List.filter_eq_self.mpr others
  refine ⟨after, removed, ?_⟩
  rw [left]
  have small := consistent.small
  rw [List.length_append, List.length_cons] at small
  exact holds.consistent (by
    rw [List.length_append]
    omega)

/-- Each operation does with the list what it does with the sequence. -/
theorem perform_consistent (consistent : list.Consistent entries)
    (operation : Operation α)
    (admissible : operation.Admissible list entries) :
    ∃ after, operation.perform list =
        some (operation.returned entries, after) ∧
      after.Consistent (operation.apply entries) := by
  have small := consistent.small
  cases operation with
  | nodeNew node val =>
      obtain ⟨-, holds⟩ := listNodeNew_holds consistent.holds admissible val
      exact ⟨_, rfl, holds, consistent.counts⟩
  | rpush node val =>
      obtain ⟨value, fresh, room⟩ := admissible
      obtain ⟨cell, found, rfl⟩ := Option.map_eq_some_iff.mp value
      obtain ⟨after, pushed, holds⟩ :=
        listRpush_holds consistent.holds found fresh small
      refine ⟨after, ?_, holds.consistent ?_⟩
      · exact congrArg (Option.map fun after => (some node, after)) pushed
      · rw [List.length_append]
        exact room
  | lpush node val =>
      obtain ⟨value, fresh, room⟩ := admissible
      obtain ⟨cell, found, rfl⟩ := Option.map_eq_some_iff.mp value
      obtain ⟨after, pushed, holds⟩ :=
        listLpush_holds consistent.holds found fresh small
      refine ⟨after, ?_, holds.consistent room⟩
      exact congrArg (Option.map fun after => (some node, after)) pushed
  | rpop =>
      rcases List.eq_nil_or_concat entries with rfl | ⟨front, entry, rfl⟩
      · have zero := (consistent.holds.len_eq_zero small).mpr rfl
        exact ⟨list, (listPop_empty zero).1, consistent⟩
      · rw [List.concat_eq_append] at consistent small ⊢
        rw [List.length_append, List.length_singleton] at small
        obtain ⟨after, popped, holds⟩ := listRpop_holds consistent.holds small
        refine ⟨after, ?_, ?_⟩
        · rw [Operation.returned, List.getLast?_concat]
          exact popped
        · rw [Operation.apply, List.dropLast_concat]
          exact holds.consistent (by omega)
  | lpop =>
      cases entries with
      | nil =>
          have zero := (consistent.holds.len_eq_zero small).mpr rfl
          exact ⟨list, (listPop_empty zero).2, consistent⟩
      | cons entry back =>
          rw [List.length_cons] at small
          obtain ⟨after, popped, holds⟩ :=
            listLpop_holds consistent.holds small
          exact ⟨after, popped, holds.consistent (by omega)⟩
  | remove node =>
      obtain ⟨after, removed, left⟩ := listRemove_filter consistent admissible
      exact ⟨after, congrArg (Option.map fun after => (none, after)) removed,
        left⟩

/-- So does any sequence of operations. -/
theorem performAll_consistent (consistent : list.Consistent entries)
    (operations : List (Operation α))
    (admissible : Operation.AllAdmissible operations list entries) :
    ∃ after, Operation.performAll operations list =
        some (Operation.returnedAll operations entries, after) ∧
      after.Consistent (Operation.applyAll operations entries) := by
  induction operations generalizing list entries with
  | nil => exact ⟨list, rfl, consistent⟩
  | cons operation operations inductionHypothesis =>
      obtain ⟨first, others⟩ := admissible
      obtain ⟨middle, performed, between⟩ :=
        perform_consistent consistent operation first
      obtain ⟨after, later, last⟩ :=
        inductionHypothesis between (others _ middle performed)
      refine ⟨after, ?_, last⟩
      rw [Operation.performAll]
      simp only [performed, later, Option.bind_eq_bind, Option.bind_some]
      rfl

theorem listNew_consistent (nodes : Nat → Option (ListNode α)) :
    (listNew nodes).Consistent [] :=
  ⟨listNew_holds nodes, rfl⟩

/-- Any sequence of pushes, pops and removals yields the sequence that the same
operations on sequences yield, and the list is seen as that sequence. -/
theorem list_refinesSequence [DecidableEq α]
    (nodes : Nat → Option (ListNode α)) (operations : List (Operation α))
    (admissible :
      Operation.AllAdmissible operations (listNew nodes) []) :
    ∃ list, Operation.performAll operations (listNew nodes) =
        some (Operation.returnedAll operations [], list) ∧
      list.IsSequence (Operation.applyAll operations []) := by
  obtain ⟨list, performed, consistent⟩ :=
    performAll_consistent (listNew_consistent nodes) operations admissible
  exact ⟨list, performed, consistent.isSequence⟩

theorem Operation.allAdmissible_cons {operation : Operation α}
    {operations : List (Operation α)} {list after : LinkedList α}
    {entries : List (Nat × α)} {result : Option Nat}
    (admissible : operation.Admissible list entries)
    (performed : operation.perform list = some (result, after))
    (others : AllAdmissible operations after (operation.apply entries)) :
    AllAdmissible (operation :: operations) list entries := by
  refine ⟨admissible, fun result' after' again => ?_⟩
  rw [performed] at again
  cases again
  exact others

/-- Nodes are pushed at both ends, one is removed between the others, and two
are popped. -/
def severalOperations : List (Operation Nat) :=
  [.nodeNew 1 10, .nodeNew 2 20, .nodeNew 3 30, .nodeNew 4 40, .rpush 1 10,
    .rpush 2 20, .lpush 3 30, .rpush 4 40, .remove 1, .lpop, .nodeNew 1 50,
    .lpush 1 50, .rpop]

theorem list_refinesSequence_several :
    ∃ list, Operation.performAll severalOperations (listNew fun _ => none) =
        some ([some 1, some 2, some 3, some 4, some 1, some 2, some 3, some 4,
          none, some 3, some 1, some 1, some 4], list) ∧
      list.IsSequence [(1, 50), (2, 20)] := by
  refine list_refinesSequence (fun _ => none) severalOperations ?_
  refine Operation.allAdmissible_cons rfl rfl ?_
  refine Operation.allAdmissible_cons rfl rfl ?_
  refine Operation.allAdmissible_cons rfl rfl ?_
  refine Operation.allAdmissible_cons rfl rfl ?_
  refine Operation.allAdmissible_cons ⟨rfl, by decide, by decide⟩ rfl ?_
  refine Operation.allAdmissible_cons ⟨rfl, by decide, by decide⟩ rfl ?_
  refine Operation.allAdmissible_cons ⟨rfl, by decide, by decide⟩ rfl ?_
  refine Operation.allAdmissible_cons ⟨rfl, by decide, by decide⟩ rfl ?_
  refine Operation.allAdmissible_cons
    (show 1 ∈ [3, 1, 2, 4] by decide) rfl ?_
  refine Operation.allAdmissible_cons trivial rfl ?_
  refine Operation.allAdmissible_cons rfl rfl ?_
  refine Operation.allAdmissible_cons ⟨rfl, by decide, by decide⟩ rfl ?_
  exact Operation.allAdmissible_cons trivial rfl trivial

/-- There are lists of any length that the counter can count. -/
theorem exists_consistent (count : Nat) (small : count < 2 ^ 32) :
    ∃ list : LinkedList Nat,
      list.Consistent ((List.range count).map fun node => (node, node)) ∧
        ∀ node, (list.nodes node).map ListNode.val = some node := by
  induction count with
  | zero =>
      exact ⟨listNew fun node => some ⟨none, none, node⟩, listNew_consistent _,
        fun _ => rfl⟩
  | succ count inductionHypothesis =>
      obtain ⟨list, consistent, allocated⟩ :=
        inductionHypothesis (Nat.lt_of_succ_lt small)
      obtain ⟨cell, found, val⟩ := Option.map_eq_some_iff.mp (allocated count)
      obtain ⟨after, -, holds, kept⟩ :=
        listRpush_pushes consistent.holds found (by simp) consistent.small
      rw [val] at holds
      refine ⟨after, ?_, fun node => (kept node).trans (allocated node)⟩
      rw [List.range_succ, List.map_append, List.map_singleton]
      refine holds.consistent ?_
      simpa using small

/-- Without memory for an iterator nothing is found in a list of one node; and
the counter of a list of the greatest length is zero when one more node is
pushed. -/
theorem list_memory_counter :
    (¬ ∀ (list : LinkedList Nat) (entries : List (Nat × Nat)),
      list.Consistent entries → ∀ (allocates : Bool) (index : Int32),
        list.listAt allocates index =
          some (elementAt (entries.map Prod.fst) index.toInt)) ∧
    ¬ ∀ (list : LinkedList Nat) (entries : List (Nat × Nat)) (node val : Nat),
      list.Consistent entries →
        (list.nodes node).map ListNode.val = some val →
          node ∉ entries.map Prod.fst →
            ∀ after, list.listRpush node = some after →
              after.Consistent (entries ++ [(node, val)]) := by
  constructor
  · intro finds
    obtain ⟨list, consistent, -⟩ := exists_consistent 1 (by decide)
    have found := finds list _ consistent false 0
    have nothing : list.listAt false 0 = some none := by
      unfold listAt
      dsimp only
      rw [if_neg Bool.false_ne_true, ite_self]
    rw [nothing] at found
    exact absurd found (by decide)
  · intro pushes
    obtain ⟨list, consistent, allocated⟩ :=
      exists_consistent (2 ^ 32 - 1) (by decide)
    have fresh : 2 ^ 32 - 1 ∉ ((List.range (2 ^ 32 - 1)).map
        fun node => (node, node)).map Prod.fst := by
      simp
    obtain ⟨cell, found, -⟩ :=
      Option.map_eq_some_iff.mp (allocated (2 ^ 32 - 1))
    obtain ⟨after, pushed, -, -⟩ :=
      listRpush_pushes consistent.holds found fresh consistent.small
    have longer := pushes list _ (2 ^ 32 - 1) (2 ^ 32 - 1) consistent
      (allocated _) fresh after pushed
    have small := longer.small
    rw [List.length_append, List.length_map, List.length_range,
      List.length_singleton] at small
    exact absurd small (by decide)

end Runs

end LinkedList
end UIoT
