import UIoT.Defs
import UIoT.Library.LinkedRing

/-!
# Linked lists

The doubly linked lists of `utils_list.c` with their nodes on the heap.  A
function that follows a pointer to a node that was freed has no result.  The
null pointer stands for the list itself, whose head comes behind it and whose
tail comes before it; so the nodes of a list form a ring.
-/

namespace UIoT

open LinkedRing (Links)

/-- `ListNode`; pointers are addresses, and `none` is the null pointer. -/
structure ListNode (α : Type) where
  prev : Option Nat
  next : Option Nat
  val : α

/-- `List` with the heap its nodes are on. -/
structure LinkedList (α : Type) where
  nodes : Nat → Option (ListNode α)
  head : Option Nat
  tail : Option Nat
  len : UInt32

/-- `ListDirection` -/
inductive ListDirection
  | head
  | tail
  deriving DecidableEq, Repr

/-- `ListIterator` -/
structure ListIterator where
  next : Option Nat
  direction : ListDirection
  deriving DecidableEq

namespace LinkedList

variable {α : Type}

/-! ## Operations -/

/-- `node->next = next` -/
def setNext (list : LinkedList α) (node : Nat) (next : Option Nat) :
    Option (LinkedList α) :=
  (list.nodes node).map fun cell =>
    { list with
      nodes := Function.update list.nodes node (some { cell with next }) }

/-- `node->prev = prev` -/
def setPrev (list : LinkedList α) (node : Nat) (prev : Option Nat) :
    Option (LinkedList α) :=
  (list.nodes node).map fun cell =>
    { list with
      nodes := Function.update list.nodes node (some { cell with prev }) }

/-- `prev ? (prev->next = next) : (self->head = next)` -/
def assignNext (list : LinkedList α) (prev next : Option Nat) :
    Option (LinkedList α) :=
  match prev with
  | some prev => list.setNext prev next
  | none => some { list with head := next }

/-- `next ? (next->prev = prev) : (self->tail = prev)` -/
def assignPrev (list : LinkedList α) (next prev : Option Nat) :
    Option (LinkedList α) :=
  match next with
  | some next => list.setPrev next prev
  | none => some { list with tail := prev }

/-- `node->val` gets other contents. -/
def setVal (list : LinkedList α) (node : Nat) (val : α) :
    Option (LinkedList α) :=
  (list.nodes node).map fun cell =>
    { list with
      nodes := Function.update list.nodes node (some { cell with val }) }

/-- `list_new` on a heap. -/
def listNew (nodes : Nat → Option (ListNode α)) : LinkedList α :=
  ⟨nodes, none, none, 0⟩

/-- `list_node_new` at a free address. -/
def listNodeNew (list : LinkedList α) (node : Nat) (val : α) : LinkedList α :=
  { list with
    nodes := Function.update list.nodes node (some ⟨none, none, val⟩) }

/-- `list_rpush` -/
def listRpush (list : LinkedList α) (node : Nat) : Option (LinkedList α) := do
  let list ←
    if list.len ≠ 0 then do
      let list ← list.setPrev node list.tail
      let list ← list.setNext node none
      let tail ← list.tail
      let list ← list.setNext tail (some node)
      pure { list with tail := some node }
    else do
      let list := { list with head := some node, tail := some node }
      let list ← list.setNext node none
      list.setPrev node none
  pure { list with len := list.len + 1 }

/-- The end of `list_remove`: the node is freed and no longer counted. -/
def free (list : LinkedList α) (node : Nat) : LinkedList α :=
  { list with
    nodes := Function.update list.nodes node none
    len := list.len - 1 }

/-- `list_remove` -/
def listRemove (list : LinkedList α) (node : Nat) : Option (LinkedList α) := do
  let cell ← list.nodes node
  let list ← list.assignNext cell.prev cell.next
  let cell ← list.nodes node
  let list ← list.assignPrev cell.next cell.prev
  pure (list.free node)

/-- `list_iterator_new` -/
def listIteratorNew (list : LinkedList α) (direction : ListDirection) :
    ListIterator where
  next :=
    match direction with
    | .head => list.head
    | .tail => list.tail
  direction

/-- `list_iterator_next` -/
def listIteratorNext (list : LinkedList α) (iterator : ListIterator) :
    Option (Option Nat × ListIterator) :=
  match iterator.next with
  | none => some (none, iterator)
  | some node =>
      (list.nodes node).map fun cell =>
        (some node,
          { iterator with
            next :=
              match iterator.direction with
              | .head => cell.next
              | .tail => cell.prev })

/-! ## The list as a ring -/

/-- The neighbours of the nodes and of the list itself. -/
def links (list : LinkedList α) : Links (Option Nat) where
  next
    | none => list.head
    | some node => (list.nodes node).bind ListNode.next
  prev
    | none => list.tail
    | some node => (list.nodes node).bind ListNode.prev

/-- The list consists of nodes at these addresses with these values. -/
structure Holds (list : LinkedList α) (entries : List (Nat × α)) : Prop where
  ring : list.links.Ring none (entries.map fun entry => some entry.1)
  value : ∀ entry ∈ entries,
    (list.nodes entry.1).map ListNode.val = some entry.2
  len : list.len = UInt32.ofNat entries.length

/-- The list consists of these nodes, and its length counts them. -/
structure Consistent (list : LinkedList α) (entries : List (Nat × α)) :
    Prop where
  holds : list.Holds entries
  counts : list.len.toNat = entries.length

/-- A new list holds nothing. -/
theorem listNew_holds (nodes : Nat → Option (ListNode α)) :
    (listNew nodes).Holds [] where
  ring := Links.ring_nil rfl rfl
  value := fun _ mem => absurd mem List.not_mem_nil
  len := rfl

/-- Some pointer of a list or of one of its nodes was written. -/
structure Rewritten (list after : LinkedList α) (links : Links (Option Nat)) :
    Prop where
  links : after.links = links
  len : after.len = list.len
  value : ∀ node,
    (after.nodes node).map ListNode.val = (list.nodes node).map ListNode.val

/-- Writing pointers allocates and frees nothing. -/
theorem Rewritten.isSome {list after : LinkedList α}
    {links : Links (Option Nat)} (rewritten : list.Rewritten after links)
    (node : Nat) :
    (after.nodes node).isSome = (list.nodes node).isSome := by
  rw [← Option.isSome_map, rewritten.value, Option.isSome_map]

/-- A node of the list gets other pointers. -/
def write (list : LinkedList α) (node : Nat) (cell : ListNode α) :
    LinkedList α :=
  { list with nodes := Function.update list.nodes node (some cell) }

theorem links_write (list : LinkedList α) (node : Nat) (written : ListNode α) :
    (list.write node written).links =
      ⟨Function.update list.links.next (some node) written.next,
        Function.update list.links.prev (some node) written.prev⟩ := by
  apply Links.ext
  · funext position
    cases position with
    | none => rfl
    | some other =>
        by_cases same : other = node
        · subst same
          simp [links, write]
        · simp [links, write, same]
  · funext position
    cases position with
    | none => rfl
    | some other =>
        by_cases same : other = node
        · subst same
          simp [links, write]
        · simp [links, write, same]

theorem write_rewritten {list : LinkedList α} {node : Nat} {cell : ListNode α}
    (found : list.nodes node = some cell) (prev next : Option Nat) :
    list.Rewritten (list.write node ⟨prev, next, cell.val⟩)
        ⟨Function.update list.links.next (some node) next,
          Function.update list.links.prev (some node) prev⟩ ∧
      ∀ other, some node ≠ some other →
        (list.write node ⟨prev, next, cell.val⟩).nodes other =
          list.nodes other := by
  refine ⟨⟨links_write _ _ ⟨prev, next, cell.val⟩, rfl, fun other => ?_⟩,
    fun other ne => ?_⟩
  · by_cases same : other = node
    · subst same
      simp [write, found]
    · simp [write, same]
  · exact Function.update_of_ne (fun same => ne (congrArg some same.symm)) ..

theorem assignNext_rewritten (list : LinkedList α) (position : Option Nat)
    (allocated : ∀ node, position = some node → (list.nodes node).isSome)
    (next : Option Nat) :
    ∃ after, list.assignNext position next = some after ∧
      list.Rewritten after
        ⟨Function.update list.links.next position next, list.links.prev⟩ ∧
      ∀ other, position ≠ some other →
        after.nodes other = list.nodes other := by
  cases position with
  | none =>
      refine ⟨{ list with head := next }, rfl, ⟨?_, rfl, fun _ => rfl⟩,
        fun _ _ => rfl⟩
      apply Links.ext
      · funext position
        cases position <;> simp [links]
      · rfl
  | some node =>
      obtain ⟨cell, found⟩ := Option.isSome_iff_exists.mp (allocated node rfl)
      have kept : list.links.prev (some node) = cell.prev := by
        simp [links, found]
      have written := write_rewritten found cell.prev next
      rw [← kept, Function.update_eq_self, kept] at written
      have done : list.setNext node next =
          some (list.write node ⟨cell.prev, next, cell.val⟩) := by
        unfold setNext
        rw [found]
        rfl
      exact ⟨_, done, written⟩

theorem assignPrev_rewritten (list : LinkedList α) (position : Option Nat)
    (allocated : ∀ node, position = some node → (list.nodes node).isSome)
    (prev : Option Nat) :
    ∃ after, list.assignPrev position prev = some after ∧
      list.Rewritten after
        ⟨list.links.next, Function.update list.links.prev position prev⟩ ∧
      ∀ other, position ≠ some other →
        after.nodes other = list.nodes other := by
  cases position with
  | none =>
      refine ⟨{ list with tail := prev }, rfl, ⟨?_, rfl, fun _ => rfl⟩,
        fun _ _ => rfl⟩
      apply Links.ext
      · rfl
      · funext position
        cases position <;> simp [links]
  | some node =>
      obtain ⟨cell, found⟩ := Option.isSome_iff_exists.mp (allocated node rfl)
      have kept : list.links.next (some node) = cell.next := by
        simp [links, found]
      have written := write_rewritten found prev cell.next
      rw [← kept, Function.update_eq_self, kept] at written
      have done : list.setPrev node prev =
          some (list.write node ⟨prev, cell.next, cell.val⟩) := by
        unfold setPrev
        rw [found]
        rfl
      exact ⟨_, done, written⟩

/-! ## What the operations make of a list -/

section Operations

variable {list : LinkedList α}

/-- Every node of a list is allocated. -/
theorem Holds.allocated {entries : List (Nat × α)} (holds : list.Holds entries)
    {node : Nat} (mem : some node ∈ entries.map fun entry => some entry.1) :
    (list.nodes node).isSome := by
  obtain ⟨entry, listed, same⟩ := List.mem_map.mp mem
  obtain rfl := Option.some.inj same
  have value := holds.value entry listed
  rw [← Option.isSome_map, value]
  rfl

/-- The addresses of a list are distinct. -/
theorem Holds.nodup {entries : List (Nat × α)} (holds : list.Holds entries) :
    (entries.map Prod.fst).Nodup := by
  have distinct := (List.nodup_cons.mp holds.ring.distinct).2
  have composed : (entries.map fun entry => some entry.1) =
      (entries.map Prod.fst).map some := by
    rw [List.map_map]
    rfl
  rw [composed] at distinct
  exact distinct.of_map _

theorem free_next {node : Nat} {position : Option Nat}
    (ne : position ≠ some node) :
    (list.free node).links.next position = list.links.next position := by
  cases position with
  | none => rfl
  | some other =>
      have other_ne : other ≠ node := fun same => ne (congrArg some same)
      simp [links, free, other_ne]

theorem free_prev {node : Nat} {position : Option Nat}
    (ne : position ≠ some node) :
    (list.free node).links.prev position = list.links.prev position := by
  cases position with
  | none => rfl
  | some other =>
      have other_ne : other ≠ node := fun same => ne (congrArg some same)
      simp [links, free, other_ne]

theorem getLastD_map_some (entries : List (Nat × α)) :
    (entries.map fun entry => some entry.1).getLastD none =
      (entries.map Prod.fst).getLast? := by
  rw [List.getLastD_eq_getLast?, List.getLast?_map, List.getLast?_map]
  cases entries.getLast? <;> rfl

/-- What the node of an entry holds: its value, and the addresses of the nodes
before and behind it. -/
theorem Holds.cell {front back : List (Nat × α)} {entry : Nat × α}
    (holds : list.Holds (front ++ entry :: back)) :
    list.nodes entry.1 = some
      ⟨(front.map Prod.fst).getLast?, (back.map Prod.fst).head?, entry.2⟩ := by
  have ring := holds.ring
  rw [List.map_append, List.map_cons] at ring
  have value := holds.value entry (by simp)
  obtain ⟨⟨prev, next, val⟩, found, same⟩ := Option.map_eq_some_iff.mp value
  obtain rfl : val = entry.2 := same
  have prev_eq := ring.prev_eq
  have next_eq := ring.next_eq
  have back_eq : (back.map fun entry => some entry.1).headD none =
      (back.map Prod.fst).head? := by
    cases back <;> rfl
  rw [getLastD_map_some] at prev_eq
  rw [back_eq] at next_eq
  rw [← prev_eq, ← next_eq, found]
  simp [links, found]

/-- Removing a node of a list frees it and leaves the list of the others. -/
theorem listRemove_holds {front back : List (Nat × α)} {entry : Nat × α}
    (holds : list.Holds (front ++ entry :: back)) :
    ∃ after, list.listRemove entry.1 = some after ∧
      after.Holds (front ++ back) ∧ after.nodes entry.1 = none := by
  obtain ⟨node, val⟩ := entry
  have found := holds.cell
  have ring := holds.ring
  rw [List.map_append, List.map_cons] at ring
  have distinct := ring.distinct
  rw [← List.cons_append, List.nodup_middle, List.nodup_cons, List.cons_append]
    at distinct
  have absent := distinct.1
  have other_ne : ∀ other ∈ (front ++ back).map Prod.fst, other ≠ node := by
    rintro other mem rfl
    rw [List.mem_map] at mem
    obtain ⟨entry, mem, same⟩ := mem
    rw [← List.map_append] at absent
    exact absent (List.mem_cons_of_mem _ (List.mem_map.mpr
      ⟨entry, mem, congrArg some same⟩))
  have alive : ∀ other ∈ (front ++ back).map Prod.fst,
      (list.nodes other).isSome := by
    intro other mem
    obtain ⟨entry, listed, rfl⟩ := List.mem_map.mp mem
    apply holds.allocated
    refine List.mem_map.mpr ⟨entry, ?_, rfl⟩
    exact List.mem_append.mpr
      ((List.mem_append.mp listed).imp_right (List.mem_cons_of_mem _))
  have before : ∀ other, (front.map Prod.fst).getLast? = some other →
      other ∈ (front ++ back).map Prod.fst := by
    intro other last
    rw [List.map_append]
    exact List.mem_append_left _ (List.mem_of_getLast? last)
  have behind : ∀ other, (back.map Prod.fst).head? = some other →
      other ∈ (front ++ back).map Prod.fst := by
    intro other first
    rw [List.map_append]
    exact List.mem_append_right _ (List.mem_of_head? first)
  obtain ⟨first, assigned, rewritten, frame⟩ := assignNext_rewritten
    list _ (fun other same => alive other (before other same))
    (back.map Prod.fst).head?
  have still : first.nodes node = _ :=
    (frame node fun same => other_ne node (before node same) rfl).trans found
  obtain ⟨second, assigned_prev, rewritten_prev, -⟩ := assignPrev_rewritten
    first _ (fun other same => (rewritten.isSome other).trans
      (alive other (behind other same)))
    (front.map Prod.fst).getLast?
  have second_links : second.links = list.links.unlink (some node) := by
    rw [rewritten_prev.links, rewritten.links, Links.unlink, Links.join]
    simp [links, found]
  refine ⟨second.free node, ?_, ⟨?_, fun entry mem => ?_, ?_⟩,
    Function.update_self ..⟩
  · unfold listRemove
    rw [found]
    simp only [Option.bind_eq_bind, Option.bind_some, assigned, still,
      assigned_prev]
    rfl
  · rw [List.map_append]
    have others : ∀ position ∈ none ::
        (front.map (fun entry => some entry.1) ++
          back.map fun entry => some entry.1),
        position ≠ some node := by
      rintro position mem rfl
      exact absent mem
    apply ring.unlink.congr
    · intro position mem
      rw [free_next (others position mem), second_links]
    · intro position mem
      rw [free_prev (others position mem), second_links]
  · have kept : (second.free node).nodes entry.1 = second.nodes entry.1 :=
      Function.update_of_ne (other_ne _ (List.mem_map_of_mem mem)) ..
    rw [kept, rewritten_prev.value, rewritten.value]
    apply holds.value
    exact List.mem_append.mpr
      ((List.mem_append.mp mem).imp_right (List.mem_cons_of_mem _))
  · have length : (front ++ (node, val) :: back).length =
        (front ++ back).length + 1 := by simp; omega
    have shorter : (second.free node).len = list.len - 1 := by
      rw [← rewritten.len, ← rewritten_prev.len]
      rfl
    rw [shorter, holds.len, length, UInt32.ofNat_add]
    exact UInt32.add_sub_cancel ..

/-- The length of a list that memory can hold is zero for the empty one only. -/
theorem Holds.len_eq_zero {entries : List (Nat × α)}
    (holds : list.Holds entries) (small : entries.length < 2 ^ 32) :
    list.len = 0 ↔ entries = [] := by
  rw [holds.len, ← UInt32.toNat_inj, UInt32.toNat_ofNat',
    Nat.mod_eq_of_lt small]
  exact List.length_eq_zero_iff

theorem Consistent.small {entries : List (Nat × α)}
    (consistent : list.Consistent entries) : entries.length < 2 ^ 32 :=
  consistent.counts ▸ list.len.toNat_lt

theorem Holds.consistent {entries : List (Nat × α)} (holds : list.Holds entries)
    (small : entries.length < 2 ^ 32) : list.Consistent entries :=
  ⟨holds, by rw [holds.len, UInt32.toNat_ofNat_of_lt' small]⟩

theorem Consistent.eq_nil {entries : List (Nat × α)}
    (consistent : list.Consistent entries) (zero : list.len = 0) :
    entries = [] :=
  (consistent.holds.len_eq_zero consistent.small).mp zero

/-- Pushing a node lets it in between the last one and the list itself. -/
theorem listRpush_rewritten {node : Nat} (allocated : (list.nodes node).isSome)
    (last : ∀ other, list.tail = some other →
      (list.nodes other).isSome ∧ other ≠ node)
    (empty : list.len = 0 ↔ list.tail = none) :
    ∃ middle, list.Rewritten middle
        (list.links.insert list.tail (some node) none) ∧
      list.listRpush node = some { middle with len := middle.len + 1 } := by
  unfold listRpush
  by_cases zero : list.len = 0
  · rw [if_neg (not_not_intro zero), empty.mp zero]
    obtain ⟨first, headed, rewritten, -⟩ :=
      assignNext_rewritten list none (by simp)
        (some node)
    obtain ⟨second, tailed, rewritten_tail, -⟩ :=
      assignPrev_rewritten first none (by simp)
        (some node)
    have alive : (second.nodes node).isSome :=
      (rewritten_tail.isSome node).trans
        ((rewritten.isSome node).trans allocated)
    obtain ⟨third, nexted, rewritten_next, -⟩ :=
      assignNext_rewritten second (some node)
        (fun other same => Option.some.inj same ▸ alive) none
    obtain ⟨fourth, preved, rewritten_prev, -⟩ :=
      assignPrev_rewritten third (some node)
        (fun other same => Option.some.inj same ▸
          (rewritten_next.isSome node).trans alive) none
    refine ⟨fourth, ⟨?_, ?_, fun other => ?_⟩, ?_⟩
    · rw [rewritten_prev.links, rewritten_next.links, rewritten_tail.links,
        rewritten.links, Links.insert, Links.join, Links.join]
      simp only [Links.mk.injEq, true_and]
      exact Function.update_comm (by simp) ..
    · rw [rewritten_prev.len, rewritten_next.len, rewritten_tail.len,
        rewritten.len]
    · rw [rewritten_prev.value, rewritten_next.value, rewritten_tail.value,
        rewritten.value]
    · cases headed
      cases tailed
      have nexted : setNext _ node none = some third := nexted
      have preved : setPrev third node none = some fourth := preved
      simp only [Option.bind_eq_bind, nexted, preved, Option.bind_some]
      rfl
  · rw [if_pos zero]
    obtain ⟨other, tail⟩ := Option.ne_none_iff_exists'.mp (mt empty.mpr zero)
    obtain ⟨other_allocated, other_ne⟩ := last other tail
    obtain ⟨first, preved, rewritten_prev, -⟩ :=
      assignPrev_rewritten list (some node)
        (fun other same => Option.some.inj same ▸ allocated) list.tail
    obtain ⟨second, nexted, rewritten_next, -⟩ :=
      assignNext_rewritten first (some node)
        (fun other same => Option.some.inj same ▸
          (rewritten_prev.isSome node).trans allocated) none
    obtain ⟨third, assigned, rewritten, -⟩ :=
      assignNext_rewritten second (some other)
        (fun known same => Option.some.inj same ▸
          (rewritten_next.isSome other).trans
            ((rewritten_prev.isSome other).trans other_allocated)) (some node)
    obtain ⟨fourth, tailed, rewritten_tail, -⟩ :=
      assignPrev_rewritten third none (by simp)
        (some node)
    refine ⟨fourth, ⟨?_, ?_, fun other => ?_⟩, ?_⟩
    · rw [rewritten_tail.links, rewritten.links, rewritten_next.links,
        rewritten_prev.links, Links.insert, Links.join, Links.join, tail]
      simp only [Links.mk.injEq, and_true]
      exact Function.update_comm
        (fun same => other_ne (Option.some.inj same).symm) ..
    · rw [rewritten_tail.len, rewritten.len, rewritten_next.len,
        rewritten_prev.len]
    · rw [rewritten_tail.value, rewritten.value, rewritten_next.value,
        rewritten_prev.value]
    · cases tailed
      have preved : list.setPrev node list.tail = some first := preved
      have nexted : first.setNext node none = some second := nexted
      have assigned : second.setNext other (some node) = some third := assigned
      have second_tail : second.tail = some other := by
        have kept : second.links.prev none = first.links.prev none :=
          congrFun (congrArg Links.prev rewritten_next.links) none
        have before : first.links.prev none = list.tail := by
          rw [rewritten_prev.links]
          simp [links]
        exact kept.trans (before.trans tail)
      simp only [Option.bind_eq_bind, preved, nexted, Option.bind_some,
        second_tail, assigned]
      rfl

/-- Pushing a new node puts it at the end of the list, and changes the value of
none. -/
theorem listRpush_pushes {entries : List (Nat × α)} {node : Nat}
    {cell : ListNode α} (holds : list.Holds entries)
    (found : list.nodes node = some cell)
    (fresh : node ∉ entries.map Prod.fst)
    (small : entries.length < 2 ^ 32) :
    ∃ after, list.listRpush node = some after ∧
      after.Holds (entries ++ [(node, cell.val)]) ∧
      ∀ other, (after.nodes other).map ListNode.val =
        (list.nodes other).map ListNode.val := by
  have alive : (list.nodes node).isSome := by
    rw [found]
    rfl
  have tail_eq : list.tail =
      (entries.map fun entry => some entry.1).getLastD none :=
    holds.ring.prev_header
  have fresh_mem : some node ∉ entries.map fun entry => some entry.1 := by
    intro mem
    obtain ⟨entry, listed, same⟩ := List.mem_map.mp mem
    exact fresh (List.mem_map.mpr ⟨entry, listed, Option.some.inj same⟩)
  have tail_mem : ∀ other, list.tail = some other →
      some other ∈ entries.map fun entry => some entry.1 := by
    intro other same
    have mem : list.tail ∈ none :: entries.map fun entry => some entry.1 := by
      rw [tail_eq]
      exact List.getLastD_mem_cons ..
    rw [same] at mem
    exact (List.mem_cons.mp mem).resolve_left (by simp)
  obtain ⟨middle, rewritten, pushed⟩ := listRpush_rewritten alive
    (fun other same => ⟨holds.allocated (tail_mem other same), fun known =>
      fresh_mem (known ▸ tail_mem other same)⟩)
    (by
      rw [holds.len_eq_zero small, tail_eq]
      constructor
      · rintro rfl
        rfl
      · intro last
        by_contra nonempty
        obtain ⟨front, entry, rfl⟩ :=
          (List.eq_nil_or_concat entries).resolve_left nonempty
        simp at last)
  refine ⟨_, pushed, ⟨?_, fun entry mem => ?_, ?_⟩, rewritten.value⟩
  · change middle.links.Ring none _
    have ring := holds.ring
    rw [rewritten.links, tail_eq, List.map_append]
    rw [← List.append_nil (entries.map _)] at ring
    have absent : some node ∉
        none :: (entries.map (fun entry => some entry.1) ++ []) := by
      simpa using fresh
    have inserted := ring.insert absent
    simpa using inserted
  · change (middle.nodes entry.1).map ListNode.val = _
    rw [rewritten.value]
    rcases List.mem_append.mp mem with mem | same
    · exact holds.value entry mem
    · obtain rfl := List.mem_singleton.mp same
      rw [found]
      rfl
  · change middle.len + 1 = _
    rw [rewritten.len, holds.len, List.length_append, UInt32.ofNat_add]
    rfl

theorem listRpush_holds {entries : List (Nat × α)} {node : Nat}
    {cell : ListNode α} (holds : list.Holds entries)
    (found : list.nodes node = some cell)
    (fresh : node ∉ entries.map Prod.fst)
    (small : entries.length < 2 ^ 32) :
    ∃ after, list.listRpush node = some after ∧
      after.Holds (entries ++ [(node, cell.val)]) := by
  obtain ⟨after, pushed, holds_after, -⟩ :=
    listRpush_pushes holds found fresh small
  exact ⟨after, pushed, holds_after⟩

/-- A new node is in no list yet. -/
theorem listNodeNew_holds {entries : List (Nat × α)} {node : Nat}
    (holds : list.Holds entries) (free : list.nodes node = none) (val : α) :
    node ∉ entries.map Prod.fst ∧
      (list.listNodeNew node val).Holds entries := by
  have fresh : ∀ entry ∈ entries, entry.1 ≠ node := by
    rintro entry mem rfl
    have value := holds.value entry mem
    rw [free] at value
    cases value
  have other : ∀ position ∈ none :: entries.map (fun entry => some entry.1),
      position ≠ some node := by
    rintro position mem rfl
    obtain ⟨entry, listed, same⟩ :=
      List.mem_map.mp ((List.mem_cons.mp mem).resolve_left (by simp))
    exact fresh entry listed (Option.some.inj same)
  have linked : (list.listNodeNew node val).links = _ :=
    links_write list node ⟨none, none, val⟩
  refine ⟨fun mem => ?_, ?_, fun entry mem => ?_, holds.len⟩
  · obtain ⟨entry, listed, same⟩ := List.mem_map.mp mem
    exact fresh entry listed same
  · rw [linked]
    apply holds.ring.congr
    · exact fun position mem => Function.update_of_ne (other position mem) ..
    · exact fun position mem => Function.update_of_ne (other position mem) ..
  · have kept : (list.listNodeNew node val).nodes entry.1 =
        list.nodes entry.1 := Function.update_of_ne (fresh entry mem) ..
    rw [kept]
    exact holds.value entry mem

/-! ## Iterators -/

/-- An iterator from the tail begins with the last node. -/
theorem listIteratorNew_tail {entries : List (Nat × α)}
    (holds : list.Holds entries) :
    list.listIteratorNew .tail =
      ⟨(entries.map Prod.fst).getLast?, .tail⟩ := by
  have last : list.tail = _ := holds.ring.prev_header
  rw [getLastD_map_some] at last
  rw [listIteratorNew, last]

/-- An iterator from the tail goes on with the node before. -/
theorem listIteratorNext_tail {front back : List (Nat × α)} {entry : Nat × α}
    (holds : list.Holds (front ++ entry :: back)) :
    list.listIteratorNext ⟨some entry.1, .tail⟩ =
      some (some entry.1, ⟨(front.map Prod.fst).getLast?, .tail⟩) := by
  unfold listIteratorNext
  dsimp only
  rw [holds.cell]
  rfl

/-! ## Values -/

/-- Writing the value of a node leaves the list as it is but for that value. -/
theorem setVal_holds {front back : List (Nat × α)} {entry : Nat × α}
    (holds : list.Holds (front ++ entry :: back)) (val : α) :
    ∃ after, list.setVal entry.1 val = some after ∧
      after.Holds (front ++ (entry.1, val) :: back) ∧
      ∀ other, other ≠ entry.1 → after.nodes other = list.nodes other := by
  have found := holds.cell
  have nodup := holds.nodup
  have links : (list.write entry.1 ⟨(front.map Prod.fst).getLast?,
      (back.map Prod.fst).head?, val⟩).links = list.links := by
    rw [links_write]
    apply Links.ext
    · refine Function.update_eq_self_iff.mpr ?_
      simp [LinkedList.links, found]
    · refine Function.update_eq_self_iff.mpr ?_
      simp [LinkedList.links, found]
  refine ⟨list.write entry.1 ⟨(front.map Prod.fst).getLast?,
    (back.map Prod.fst).head?, val⟩, ?_, ⟨?_, fun other mem => ?_, ?_⟩,
    fun other ne => Function.update_of_ne ne ..⟩
  · unfold setVal
    rw [found]
    rfl
  · rw [links]
    have ring := holds.ring
    rw [List.map_append, List.map_cons] at ring ⊢
    exact ring
  · rw [List.mem_append, List.mem_cons] at mem
    rcases mem with inFront | rfl | inBack
    · have ne : other.1 ≠ entry.1 := by
        rw [List.map_append, List.map_cons] at nodup
        exact (List.nodup_append.mp nodup).2.2 _ (List.mem_map_of_mem inFront)
          _ List.mem_cons_self
      have value := holds.value other (List.mem_append_left _ inFront)
      simpa [write, ne] using value
    · simp [write]
    · have ne : other.1 ≠ entry.1 := by
        rw [List.map_append, List.map_cons] at nodup
        have absent := (List.nodup_cons.mp (List.nodup_append.mp nodup).2.1).1
        exact fun same => absent (same ▸ List.mem_map_of_mem inBack)
      have value := holds.value other
        (List.mem_append_right _ (List.mem_cons_of_mem _ inBack))
      simpa [write, ne] using value
  · have length := holds.len
    rw [List.length_append, List.length_cons] at length ⊢
    exact length

end Operations

end LinkedList

end UIoT
