import UIoT.Utils.List

/-!
# Both ends of a list

`list_rpop`, `list_lpush` and `list_lpop`.  What is done at the head is what is
done at the tail of the list in reverse order, in which all pointers change
their roles.
-/

namespace UIoT

open LinkedRing (Links)

namespace LinkedList

variable {α : Type}

/-! ## Operations -/

/-- The end of a pop: `node->next = node->prev = NULL`, and the node is
returned. -/
def detach (list : LinkedList α) (node : Nat) :
    Option (Option Nat × LinkedList α) := do
  let list ← list.setPrev node none
  let list ← list.setNext node none
  pure (some node, list)

/-- `list_rpop`: what it returns, and the list. -/
def listRpop (list : LinkedList α) :
    Option (Option Nat × LinkedList α) :=
  if list.len = 0 then some (none, list)
  else do
    let node ← list.tail
    let list := { list with len := list.len - 1 }
    let list ←
      if list.len ≠ 0 then do
        let cell ← list.nodes node
        let list := { list with tail := cell.prev }
        let tail ← list.tail
        list.setNext tail none
      else pure { list with head := none, tail := none }
    list.detach node

/-- `list_lpop`: what it returns, and the list. -/
def listLpop (list : LinkedList α) :
    Option (Option Nat × LinkedList α) :=
  if list.len = 0 then some (none, list)
  else do
    let node ← list.head
    let list := { list with len := list.len - 1 }
    let list ←
      if list.len ≠ 0 then do
        let cell ← list.nodes node
        let list := { list with head := cell.next }
        let head ← list.head
        list.setPrev head none
      else pure { list with head := none, tail := none }
    list.detach node

/-- `list_lpush` -/
def listLpush (list : LinkedList α) (node : Nat) : Option (LinkedList α) := do
  let list ←
    if list.len ≠ 0 then do
      let list ← list.setNext node list.head
      let list ← list.setPrev node none
      let head ← list.head
      let list ← list.setPrev head (some node)
      pure { list with head := some node }
    else do
      let list := { list with head := some node, tail := some node }
      let list ← list.setNext node none
      list.setPrev node none
  pure { list with len := list.len + 1 }

/-! ## The list in reverse order -/

/-- A node with its neighbours exchanged. -/
def mirrorNode (cell : ListNode α) : ListNode α :=
  ⟨cell.next, cell.prev, cell.val⟩

/-- The list in reverse order. -/
def mirror (list : LinkedList α) : LinkedList α where
  nodes := fun node => (list.nodes node).map mirrorNode
  head := list.tail
  tail := list.head
  len := list.len

section Mirror

variable {list : LinkedList α}

/-- Other ends and another length. -/
theorem mk_mirror (list : LinkedList α) (head tail : Option Nat)
    (len : UInt32) :
    (⟨list.mirror.nodes, head, tail, len⟩ : LinkedList α) =
      LinkedList.mirror ⟨list.nodes, tail, head, len⟩ := rfl

theorem mirror_mirror (list : LinkedList α) : list.mirror.mirror = list := by
  have nodes : list.mirror.mirror.nodes = list.nodes := by
    funext node
    unfold mirror
    dsimp only
    cases list.nodes node <;> rfl
  unfold mirror at nodes ⊢
  dsimp only at nodes ⊢
  rw [nodes]

theorem mirror_links (list : LinkedList α) :
    list.mirror.links = list.links.swap := by
  apply Links.ext
  · funext position
    cases position with
    | none => rfl
    | some node =>
        simp only [links, mirror, Links.swap]
        cases list.nodes node <;> rfl
  · funext position
    cases position with
    | none => rfl
    | some node =>
        simp only [links, mirror, Links.swap]
        cases list.nodes node <;> rfl

theorem mirror_value (list : LinkedList α) (node : Nat) :
    (list.mirror.nodes node).map ListNode.val =
      (list.nodes node).map ListNode.val := by
  unfold mirror
  dsimp only
  cases list.nodes node <;> rfl

/-- The list in reverse order holds the entries in reverse order. -/
theorem Holds.mirror {entries : List (Nat × α)} (holds : list.Holds entries) :
    list.mirror.Holds entries.reverse where
  ring := by
    rw [mirror_links, List.map_reverse]
    exact holds.ring.swap
  value := fun entry mem => by
    rw [mirror_value]
    exact holds.value entry (List.mem_reverse.mp mem)
  len := by
    rw [List.length_reverse]
    exact holds.len

theorem Consistent.mirror {entries : List (Nat × α)}
    (consistent : list.Consistent entries) :
    list.mirror.Consistent entries.reverse where
  holds := consistent.holds.mirror
  counts := by
    rw [List.length_reverse]
    exact consistent.counts

theorem mirror_write (list : LinkedList α) (node : Nat) (cell : ListNode α) :
    (list.write node cell).mirror =
      list.mirror.write node (mirrorNode cell) := by
  have nodes : (list.write node cell).mirror.nodes =
      (list.mirror.write node (mirrorNode cell)).nodes := by
    funext other
    by_cases same : other = node
    · subst same
      simp [LinkedList.mirror, write]
    · simp [LinkedList.mirror, write, same]
  unfold LinkedList.mirror write at nodes ⊢
  dsimp only at nodes ⊢
  rw [nodes]

theorem mirror_setNext (list : LinkedList α) (node : Nat) (next : Option Nat) :
    list.mirror.setNext node next =
      (list.setPrev node next).map LinkedList.mirror := by
  have found : list.mirror.nodes node = (list.nodes node).map mirrorNode := rfl
  unfold setNext setPrev
  rw [found, Option.map_map, Option.map_map]
  cases list.nodes node with
  | none => rfl
  | some cell =>
      exact congrArg some
        (mirror_write list node ⟨next, cell.next, cell.val⟩).symm

theorem mirror_setPrev (list : LinkedList α) (node : Nat) (prev : Option Nat) :
    list.mirror.setPrev node prev =
      (list.setNext node prev).map LinkedList.mirror := by
  have found : list.mirror.nodes node = (list.nodes node).map mirrorNode := rfl
  unfold setNext setPrev
  rw [found, Option.map_map, Option.map_map]
  cases list.nodes node with
  | none => rfl
  | some cell =>
      exact congrArg some
        (mirror_write list node ⟨cell.prev, prev, cell.val⟩).symm

/-- The two pointers of a node are written in either order. -/
theorem setNext_setPrev_comm (list : LinkedList α) (node : Nat)
    (prev next : Option Nat) :
    (list.setNext node next).bind (fun list => list.setPrev node prev) =
      (list.setPrev node prev).bind fun list => list.setNext node next := by
  unfold setNext setPrev
  cases list.nodes node with
  | none => rfl
  | some cell => simp

/-- Pushing at the head is pushing at the tail of the list in reverse order. -/
theorem listLpush_eq (list : LinkedList α) (node : Nat) :
    list.listLpush node =
      (list.mirror.listRpush node).map LinkedList.mirror := by
  have len : list.mirror.len = list.len := rfl
  unfold listRpush listLpush
  rw [len]
  by_cases zero : list.len = 0
  · rw [if_neg (not_not_intro zero), if_neg (not_not_intro zero)]
    simp only [Option.bind_eq_bind, mk_mirror, mirror_setNext, mirror_setPrev,
      Option.bind_map, Function.comp_def, Option.map_bind, Option.pure_def,
      Option.map_some, mirror_mirror]
    rw [← Option.bind_assoc, setNext_setPrev_comm, Option.bind_assoc]
    rfl
  · rw [if_pos zero, if_pos zero]
    simp only [Option.bind_eq_bind, mk_mirror, mirror_setNext, mirror_setPrev,
      Option.bind_map, Function.comp_def, Option.map_bind, Option.pure_def,
      Option.bind_some, Option.map_some, mirror_mirror]
    rfl

theorem mirror_detach (list : LinkedList α) (node : Nat) :
    list.detach node =
      (list.mirror.detach node).map fun done => (done.1, done.2.mirror) := by
  unfold detach
  simp only [Option.bind_eq_bind, mirror_setNext, mirror_setPrev,
    Option.bind_map, Function.comp_def, Option.map_bind, Option.pure_def,
    Option.map_some, mirror_mirror]
  rw [← Option.bind_assoc, ← setNext_setPrev_comm, Option.bind_assoc]

/-- Popping at the head is popping at the tail of the list in reverse order. -/
theorem listLpop_eq (list : LinkedList α) :
    list.listLpop =
      list.mirror.listRpop.map fun done => (done.1, done.2.mirror) := by
  have len : list.mirror.len = list.len := rfl
  unfold listRpop listLpop
  rw [len]
  by_cases zero : list.len = 0
  · rw [if_pos zero, if_pos zero, Option.map_some, mirror_mirror]
  · rw [if_neg zero, if_neg zero]
    have tail : list.mirror.tail = list.head := rfl
    rw [tail]
    cases list.head with
    | none => rfl
    | some node =>
      have found : list.mirror.nodes node = (list.nodes node).map mirrorNode :=
        rfl
      simp only [Option.bind_eq_bind, Option.bind_some]
      by_cases last : list.len - 1 = 0
      · rw [if_neg (not_not_intro last), if_neg (not_not_intro last)]
        exact mirror_detach _ node
      · rw [if_pos last, if_pos last, found]
        simp only [mk_mirror, mirror_setNext, Option.bind_map,
          Function.comp_def, Option.map_bind, ← mirror_detach]
        rfl

end Mirror

/-! ## What the operations make of a list -/

section Ends

variable {list : LinkedList α} {entries : List (Nat × α)}

/-- Taking a node off its list only writes its own pointers. -/
theorem detach_rewritten {node : Nat} {cell : ListNode α}
    (found : list.nodes node = some cell) :
    ∃ after, list.detach node = some (some node, after) ∧
      list.Rewritten after
        ⟨Function.update list.links.next (some node) none,
          Function.update list.links.prev (some node) none⟩ ∧
      after.nodes node = some ⟨none, none, cell.val⟩ := by
  have written : (list.write node ⟨none, cell.next, cell.val⟩).nodes node =
      some ⟨none, cell.next, cell.val⟩ := Function.update_self ..
  obtain ⟨rewritten, -⟩ := write_rewritten found none none
  refine ⟨list.write node ⟨none, none, cell.val⟩, ?_, rewritten,
    Function.update_self ..⟩
  have preved : list.setPrev node none =
      some (list.write node ⟨none, cell.next, cell.val⟩) := by
    unfold setPrev
    rw [found]
    rfl
  have nexted :
      (list.write node ⟨none, cell.next, cell.val⟩).setNext node none =
        some (list.write node ⟨none, none, cell.val⟩) := by
    unfold setNext
    rw [written]
    simp [write]
  unfold detach
  simp only [Option.bind_eq_bind, preved, nexted, Option.bind_some,
    Option.pure_def]

/-- The pointers around the last node are joined. -/
theorem listRpop_rewritten {front : List (Nat × α)} {entry : Nat × α}
    (holds : list.Holds (front ++ [entry]))
    (small : front.length + 1 < 2 ^ 32) :
    ∃ middle : LinkedList α, list.listRpop = middle.detach entry.1 ∧
      LinkedList.Rewritten { list with len := list.len - 1 } middle
        (list.links.unlink (some entry.1)) := by
  have found := holds.cell
  have tail : list.tail = some entry.1 := by
    have last : list.tail = _ := holds.ring.prev_header
    rw [last, getLastD_map_some]
    simp
  have length : (front ++ [entry]).length = front.length + 1 :=
    List.length_append
  have len_ne : list.len ≠ 0 := by
    rw [Ne, holds.len_eq_zero (length ▸ small)]
    exact List.append_ne_nil_of_right_ne_nil _ (List.cons_ne_nil _ _)
  have shorter : list.len - 1 = UInt32.ofNat front.length := by
    rw [holds.len, length, UInt32.ofNat_add]
    exact UInt32.add_sub_cancel ..
  have alone : list.len - 1 = 0 ↔ front = [] := by
    have fits : front.length < 2 ^ 32 := by omega
    rw [shorter, ← UInt32.toNat_inj, UInt32.toNat_ofNat_of_lt' fits]
    exact List.length_eq_zero_iff
  generalize counted_eq : ({ list with len := list.len - 1 } : LinkedList α) =
    counted
  have counted_links : counted.links = list.links := by
    rw [← counted_eq]
    rfl
  have counted_nodes : counted.nodes = list.nodes := by rw [← counted_eq]
  obtain ⟨first, tailed, rewritten_tail, frame⟩ :=
    assignPrev_rewritten counted none (by simp) (front.map Prod.fst).getLast?
  have before : ∀ other, (front.map Prod.fst).getLast? = some other →
      (first.nodes other).isSome := by
    intro other last
    rw [rewritten_tail.isSome, counted_nodes]
    apply holds.allocated
    obtain ⟨listed, mem, same⟩ := List.mem_map.mp (List.mem_of_getLast? last)
    exact List.mem_map.mpr
      ⟨listed, List.mem_append_left _ mem, congrArg some same⟩
  obtain ⟨second, nexted, rewritten, -⟩ :=
    assignNext_rewritten first _ before none
  refine ⟨second, ?_, ⟨?_, ?_, fun node => ?_⟩⟩
  · unfold listRpop
    rw [if_neg len_ne, tail]
    simp only [Option.bind_eq_bind, Option.bind_some]
    by_cases empty : front = []
    · rw [if_neg (not_not_intro (alone.mpr empty))]
      subst empty
      cases tailed
      cases nexted
      rw [← counted_eq]
      rfl
    · rw [if_pos (mt alone.mp empty), found]
      obtain ⟨other, last⟩ : ∃ other,
          (front.map Prod.fst).getLast? = some other := by
        obtain ⟨init, listed, rfl⟩ :=
          (List.eq_nil_or_concat front).resolve_left empty
        exact ⟨listed.1, by simp⟩
      rw [last] at tailed nexted ⊢
      cases tailed
      rw [← counted_eq] at nexted
      have nexted : setNext _ other none = some second := nexted
      simp only [Option.bind_some, nexted]
  · rw [rewritten.links, rewritten_tail.links, counted_links, Links.unlink,
      Links.join]
    simp [links, found]
  · rw [rewritten.len, rewritten_tail.len]
  · rw [rewritten.value, rewritten_tail.value]

/-- Popping the last node leaves the list of the others; the node stays
allocated. -/
theorem listRpop_holds {front : List (Nat × α)} {entry : Nat × α}
    (holds : list.Holds (front ++ [entry]))
    (small : front.length + 1 < 2 ^ 32) :
    ∃ after, list.listRpop = some (some entry.1, after) ∧
      after.Holds front := by
  obtain ⟨middle, popped, rewritten⟩ := listRpop_rewritten holds small
  have value := holds.value entry (by simp)
  rw [← rewritten.value] at value
  obtain ⟨cell, found, -⟩ := Option.map_eq_some_iff.mp value
  obtain ⟨after, detached, alone, -⟩ := detach_rewritten found
  rw [detached] at popped
  have ring := holds.ring
  rw [List.map_append, List.map_singleton] at ring
  have absent := (List.nodup_middle.mp
    (List.cons_append ▸ ring.distinct : (_ :: _ ++ [some entry.1]).Nodup))
  rw [List.append_nil] at absent
  have others : ∀ position ∈ none :: front.map (fun entry => some entry.1),
      position ≠ some entry.1 := by
    rintro position mem rfl
    exact (List.nodup_cons.mp absent).1 mem
  refine ⟨after, popped, ⟨?_, fun other mem => ?_, ?_⟩⟩
  · have unlinked := ring.unlink
    rw [List.append_nil] at unlinked
    rw [alone.links, rewritten.links]
    apply unlinked.congr
    · exact fun position mem => Function.update_of_ne (others position mem) ..
    · exact fun position mem => Function.update_of_ne (others position mem) ..
  · rw [alone.value, rewritten.value]
    exact holds.value other (List.mem_append_left _ mem)
  · rw [alone.len, rewritten.len]
    dsimp only
    rw [holds.len, List.length_append, List.length_singleton, UInt32.ofNat_add]
    exact UInt32.add_sub_cancel ..

/-- Popping the first node leaves the list of the others. -/
theorem listLpop_holds {back : List (Nat × α)} {entry : Nat × α}
    (holds : list.Holds (entry :: back)) (small : back.length + 1 < 2 ^ 32) :
    ∃ after, list.listLpop = some (some entry.1, after) ∧
      after.Holds back := by
  have mirrored := holds.mirror
  rw [List.reverse_cons] at mirrored
  have length : back.reverse.length = back.length := List.length_reverse
  obtain ⟨after, popped, rest⟩ := listRpop_holds mirrored (length ▸ small)
  refine ⟨after.mirror, ?_, ?_⟩
  · rw [listLpop_eq, popped]
    rfl
  · have reversed := rest.mirror
    rw [List.reverse_reverse] at reversed
    exact reversed

/-- Nothing is popped from an empty list. -/
theorem listPop_empty (zero : list.len = 0) :
    list.listRpop = some (none, list) ∧ list.listLpop = some (none, list) := by
  unfold listRpop listLpop
  rw [if_pos zero, if_pos zero]
  exact ⟨rfl, rfl⟩

/-- Pushing a new node puts it at the beginning of the list. -/
theorem listLpush_holds {node : Nat} {cell : ListNode α}
    (holds : list.Holds entries) (found : list.nodes node = some cell)
    (fresh : node ∉ entries.map Prod.fst) (small : entries.length < 2 ^ 32) :
    ∃ after, list.listLpush node = some after ∧
      after.Holds ((node, cell.val) :: entries) := by
  have found_mirror : list.mirror.nodes node = some (mirrorNode cell) :=
    congrArg (Option.map mirrorNode) found
  have fresh_reverse : node ∉ entries.reverse.map Prod.fst := by
    rw [List.map_reverse]
    exact fun mem => fresh (List.mem_reverse.mp mem)
  have length : entries.reverse.length = entries.length := List.length_reverse
  obtain ⟨after, pushed, holds_after⟩ := listRpush_holds holds.mirror
    found_mirror fresh_reverse (length ▸ small)
  refine ⟨after.mirror, ?_, ?_⟩
  · rw [listLpush_eq, pushed]
    rfl
  · have reversed := holds_after.mirror
    rw [List.reverse_append, List.reverse_reverse] at reversed
    exact reversed

end Ends

end LinkedList
end UIoT
