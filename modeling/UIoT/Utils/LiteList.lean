import Mathlib.Data.List.Rotate
import UIoT.Library.RingFamily

/-!
# List heads

The lists of `lite-list.h` are rings of list heads that are part of larger
structures.  The functions write single pointers, and a function that follows a
pointer to a structure that was freed has no result.  Seen from outside each
head has its entries in order, and the functions add, remove, move and replace
entries.
-/

namespace UIoT
namespace LiteList

open LinkedRing (Links Family)

/-- `struct list_head` -/
structure ListHead where
  next : Nat
  prev : Nat
  deriving DecidableEq, Repr

/-- The list heads by their addresses. -/
abbrev Cells := Nat → Option ListHead

/-- `cell->next = next` -/
def setNext (cells : Cells) (cell next : Nat) : Option Cells :=
  (cells cell).map fun links =>
    Function.update cells cell (some { links with next })

/-- `cell->prev = prev` -/
def setPrev (cells : Cells) (cell prev : Nat) : Option Cells :=
  (cells cell).map fun links =>
    Function.update cells cell (some { links with prev })

/-- `INIT_LIST_HEAD` -/
def initListHead (cells : Cells) (list : Nat) : Option Cells := do
  let cells ← setNext cells list list
  setPrev cells list list

/-- `__list_add` -/
def listAddBetween (cells : Cells) (newPtr prev next : Nat) :
    Option Cells := do
  let cells ← setPrev cells next newPtr
  let cells ← setNext cells newPtr next
  let cells ← setPrev cells newPtr prev
  setNext cells prev newPtr

/-- `list_add` -/
def listAdd (cells : Cells) (newPtr head : Nat) : Option Cells := do
  let links ← cells head
  listAddBetween cells newPtr head links.next

/-- `list_add_tail` -/
def listAddTail (cells : Cells) (newPtr head : Nat) : Option Cells := do
  let links ← cells head
  listAddBetween cells newPtr links.prev head

/-- `__list_del` -/
def listDelBetween (cells : Cells) (prev next : Nat) : Option Cells := do
  let cells ← setPrev cells next prev
  setNext cells prev next

/-- `__list_del_entry` -/
def listDelEntry (cells : Cells) (entry : Nat) : Option Cells := do
  let links ← cells entry
  listDelBetween cells links.prev links.next

/-- `list_del` -/
def listDel (cells : Cells) (entry : Nat) : Option Cells := do
  let links ← cells entry
  listDelBetween cells links.prev links.next

/-- `list_replace` -/
def listReplace (cells : Cells) (old newPtr : Nat) : Option Cells := do
  let before ← cells old
  let cells ← setNext cells newPtr before.next
  let links ← cells newPtr
  let cells ← setPrev cells links.next newPtr
  let before ← cells old
  let cells ← setPrev cells newPtr before.prev
  let links ← cells newPtr
  setNext cells links.prev newPtr

/-- `list_replace_init` -/
def listReplaceInit (cells : Cells) (old newPtr : Nat) : Option Cells := do
  let cells ← listReplace cells old newPtr
  initListHead cells old

/-- `list_del_init` -/
def listDelInit (cells : Cells) (entry : Nat) : Option Cells := do
  let cells ← listDelEntry cells entry
  initListHead cells entry

/-- `list_move` -/
def listMove (cells : Cells) (list head : Nat) : Option Cells := do
  let cells ← listDelEntry cells list
  listAdd cells list head

/-- `list_move_tail` -/
def listMoveTail (cells : Cells) (list head : Nat) : Option Cells := do
  let cells ← listDelEntry cells list
  listAddTail cells list head

/-- `list_is_last` -/
def listIsLast (cells : Cells) (list head : Nat) : Option Bool := do
  let links ← cells list
  pure (links.next == head)

/-- `list_empty` -/
def listEmpty (cells : Cells) (head : Nat) : Option Bool := do
  let links ← cells head
  pure (links.next == head)

/-- `list_empty_careful` -/
def listEmptyCareful (cells : Cells) (head : Nat) : Option Bool := do
  let links ← cells head
  pure (links.next == head && links.next == links.prev)

/-- `list_rotate_left` -/
def listRotateLeft (cells : Cells) (head : Nat) : Option Cells := do
  let empty ← listEmpty cells head
  if empty then
    pure cells
  else
    let links ← cells head
    listMoveTail cells links.next head

/-- `list_is_singular` -/
def listIsSingular (cells : Cells) (head : Nat) : Option Bool := do
  let empty ← listEmpty cells head
  let links ← cells head
  pure (!empty && links.next == links.prev)

/-- The loop of the iterations: from `pos` the cells are followed as far as the
head.  They are visited in this order. -/
def visit (follow : ListHead → Nat) (cells : Cells) (head : Nat) :
    Nat → Nat → Option (List Nat)
  | 0, _ => none
  | fuel + 1, pos =>
      if pos = head then
        some []
      else do
        let links ← cells pos
        let visited ← visit follow cells head fuel (follow links)
        pure (pos :: visited)

/-- `list_for_each` -/
def listForEach (cells : Cells) (head fuel : Nat) : Option (List Nat) := do
  let links ← cells head
  visit ListHead.next cells head fuel links.next

/-- `list_for_each_prev` -/
def listForEachPrev (cells : Cells) (head fuel : Nat) :
    Option (List Nat) := do
  let links ← cells head
  visit ListHead.prev cells head fuel links.prev

/-- The loop of `LITE_json_keys_release`; `keys` has the pointers to the texts
of the entries.  What is freed is given in order. -/
def releaseLoop (keys : Nat → Option Nat) (keylist : Nat) :
    Nat → Cells → Nat → Nat → Option (Cells × List Nat)
  | 0, _, _, _ => none
  | fuel + 1, cells, pos, tmp =>
      if pos = keylist then
        some (cells, [])
      else do
        let cells ← listDel cells pos
        let cells := Function.update cells pos none
        let links ← cells tmp
        let (cells, freed) ←
          releaseLoop keys keylist fuel cells tmp links.next
        pure (cells, (keys pos).toList ++ pos :: freed)

/-- `LITE_json_keys_release` -/
def liteJsonKeysRelease (cells : Cells) (keys : Nat → Option Nat)
    (keylist fuel : Nat) : Option (Cells × List Nat) := do
  let head ← cells keylist
  let links ← cells head.next
  releaseLoop keys keylist fuel cells head.next links.next

/-! ## Seen as links -/

/-- The memory of some list heads with these links. -/
def memory (present : Nat → Bool) (links : Links Nat) : Cells := fun cell =>
  if present cell then some ⟨links.next cell, links.prev cell⟩ else none

section Memory

variable {present : Nat → Bool} {links : Links Nat}

theorem memory_of_present {cell : Nat} (here : present cell = true) :
    memory present links cell = some ⟨links.next cell, links.prev cell⟩ :=
  if_pos here

theorem memory_of_absent {cell : Nat} (absent : present cell = false) :
    memory present links cell = none :=
  if_neg (Bool.eq_false_iff.mp absent)

theorem memory_congr {other : Nat → Bool} {known : Links Nat} {cell : Nat}
    (here : other cell = present cell)
    (next : known.next cell = links.next cell)
    (prev : known.prev cell = links.prev cell) :
    memory other known cell = memory present links cell := by
  unfold memory
  rw [here, next, prev]

theorem setNext_memory {cell : Nat} (here : present cell = true) (next : Nat) :
    setNext (memory present links) cell next = some (memory present
      { links with next := Function.update links.next cell next }) := by
  rw [setNext, memory_of_present here, Option.map_some]
  congr 1
  funext known
  by_cases same : known = cell
  · rw [same, Function.update_self, memory_of_present here]
    dsimp only
    rw [Function.update_self]
  · rw [Function.update_of_ne same]
    symm
    exact memory_congr rfl (Function.update_of_ne same ..) rfl

theorem setPrev_memory {cell : Nat} (here : present cell = true) (prev : Nat) :
    setPrev (memory present links) cell prev = some (memory present
      { links with prev := Function.update links.prev cell prev }) := by
  rw [setPrev, memory_of_present here, Option.map_some]
  congr 1
  funext known
  by_cases same : known = cell
  · rw [same, Function.update_self, memory_of_present here]
    dsimp only
    rw [Function.update_self]
  · rw [Function.update_of_ne same]
    symm
    exact memory_congr rfl rfl (Function.update_of_ne same ..)

theorem initListHead_memory {list : Nat} (here : present list = true) :
    initListHead (memory present links) list =
      some (memory present (links.join list list)) := by
  rw [initListHead, setNext_memory here, Option.bind_eq_bind,
    Option.bind_some, setPrev_memory here]
  rfl

theorem listAddBetween_memory {newPtr prev next : Nat}
    (new_here : present newPtr = true) (prev_here : present prev = true)
    (next_here : present next = true) (prev_ne : prev ≠ newPtr)
    (next_ne : next ≠ newPtr) :
    listAddBetween (memory present links) newPtr prev next =
      some (memory present (links.insert prev newPtr next)) := by
  rw [listAddBetween, setPrev_memory next_here, Option.bind_eq_bind,
    Option.bind_some, setNext_memory new_here, Option.bind_some,
    setPrev_memory new_here, Option.bind_some, setNext_memory prev_here]
  congr 2
  apply Links.ext
  · exact Function.update_comm (Ne.symm prev_ne) ..
  · exact Function.update_comm next_ne ..

theorem listDelEntry_memory {entry : Nat} (here : present entry = true)
    (prev_here : present (links.prev entry) = true)
    (next_here : present (links.next entry) = true) :
    listDelEntry (memory present links) entry =
      some (memory present (links.unlink entry)) := by
  rw [listDelEntry, memory_of_present here, Option.bind_eq_bind,
    Option.bind_some, listDelBetween, setPrev_memory next_here,
    Option.bind_eq_bind, Option.bind_some, setNext_memory prev_here]
  rfl

theorem listReplace_memory {old newPtr : Nat} (old_here : present old = true)
    (new_here : present newPtr = true)
    (next_here : present (links.next old) = true)
    (prev_here : present ((links.join newPtr (links.next old)).prev old) =
      true) :
    listReplace (memory present links) old newPtr =
      some (memory present (links.replace old newPtr)) := by
  have again : Function.update links.next newPtr (links.next old) newPtr =
      links.next old := Function.update_self ..
  simp only [listReplace, Option.bind_eq_bind]
  rw [memory_of_present old_here, Option.bind_some, setNext_memory new_here,
    Option.bind_some, memory_of_present new_here, Option.bind_some]
  dsimp only
  rw [again, setPrev_memory next_here, Option.bind_some,
    memory_of_present old_here, Option.bind_some, setPrev_memory new_here,
    Option.bind_some, memory_of_present new_here, Option.bind_some]
  dsimp only
  rw [Function.update_self]
  exact setNext_memory prev_here _

end Memory

/-! ## Seen from outside -/

/-- Which structures there are, and the entries of each head in order. -/
structure Lists where
  present : Nat → Bool
  family : Family Nat

/-- A structure that is in no list. -/
def Lists.Fresh (lists : Lists) (cell : Nat) : Prop :=
  lists.present cell = true ∧ ¬lists.family.Linked cell

/-- The memory makes these lists, and what is linked is there. -/
def Represents (cells : Cells) (lists : Lists) : Prop :=
  ∃ links, cells = memory lists.present links ∧ links.Holds lists.family ∧
    ∀ cell, lists.family.Linked cell → lists.present cell = true

/-- What is done with list heads; a structure has some contents at first. -/
inductive Operation
  | malloc (cell : Nat) (contents : ListHead)
  | free (cell : Nat)
  | initListHead (list : Nat)
  | listAdd (newPtr head : Nat)
  | listAddTail (newPtr head : Nat)
  | listDel (entry : Nat)
  | listDelInit (entry : Nat)
  | listReplace (old newPtr : Nat)
  | listReplaceInit (old newPtr : Nat)
  | listMove (list head : Nat)
  | listMoveTail (list head : Nat)
  | listRotateLeft (head : Nat)

namespace Operation

/-- One operation in memory. -/
def run (cells : Cells) : Operation → Option Cells
  | malloc cell contents =>
      some (Function.update cells cell (some contents))
  | free cell => (cells cell).map fun _ => Function.update cells cell none
  | initListHead list => LiteList.initListHead cells list
  | listAdd newPtr head => LiteList.listAdd cells newPtr head
  | listAddTail newPtr head => LiteList.listAddTail cells newPtr head
  | listDel entry => LiteList.listDel cells entry
  | listDelInit entry => LiteList.listDelInit cells entry
  | listReplace old newPtr => LiteList.listReplace cells old newPtr
  | listReplaceInit old newPtr => LiteList.listReplaceInit cells old newPtr
  | listMove list head => LiteList.listMove cells list head
  | listMoveTail list head => LiteList.listMoveTail cells list head
  | listRotateLeft head => LiteList.listRotateLeft cells head

/-- What the operation is for. -/
def apply (lists : Lists) : Operation → Lists
  | malloc cell _ =>
      { lists with present := Function.update lists.present cell true }
  | free cell =>
      ⟨Function.update lists.present cell false,
        Function.update lists.family cell none⟩
  | initListHead list => { lists with family := lists.family.start list }
  | listAdd newPtr head =>
      { lists with
        family := lists.family.change head fun members => newPtr :: members }
  | listAddTail newPtr head =>
      { lists with
        family := lists.family.change head fun members =>
          members ++ [newPtr] }
  | listDel entry => { lists with family := lists.family.erase entry }
  | listDelInit entry =>
      { lists with family := (lists.family.erase entry).start entry }
  | listReplace old newPtr =>
      { lists with family := lists.family.replace old newPtr }
  | listReplaceInit old newPtr =>
      { lists with family := (lists.family.replace old newPtr).start old }
  | listMove list head =>
      { lists with
        family := (lists.family.erase list).change head fun members =>
          list :: members }
  | listMoveTail list head =>
      { lists with
        family := (lists.family.erase list).change head fun members =>
          members ++ [list] }
  | listRotateLeft head =>
      { lists with
        family := lists.family.change head fun members => members.rotate 1 }

/-- Where the operation may be used.  An entry that is added is in no list; one
that is taken out or moved is in some list.  What is freed or made a head is no
entry of a list. -/
def Admissible (lists : Lists) : Operation → Prop
  | malloc cell _ => lists.present cell = false
  | free cell | initListHead cell =>
      lists.present cell = true ∧ ¬lists.family.Member cell
  | listAdd newPtr head | listAddTail newPtr head =>
      lists.Fresh newPtr ∧ (lists.family head).isSome
  | listDel entry | listDelInit entry => lists.family.Member entry
  | listReplace old newPtr | listReplaceInit old newPtr =>
      lists.family.Linked old ∧ lists.Fresh newPtr
  | listMove list head | listMoveTail list head =>
      lists.family.Member list ∧ (lists.family head).isSome
  | listRotateLeft head => (lists.family head).isSome

end Operation

/-! ## One operation -/

section Operations

variable {cells : Cells} {lists : Lists}

theorem represents_malloc (represents : Represents cells lists) {cell : Nat}
    (absent : lists.present cell = false) (contents : ListHead) :
    Represents (Function.update cells cell (some contents))
      { lists with present := Function.update lists.present cell true } := by
  obtain ⟨links, rfl, holds, here⟩ := represents
  have other {known : Nat} (linked : lists.family.Linked known) :
      known ≠ cell := by
    rintro rfl
    have both := here known linked
    rw [absent] at both
    cases both
  refine ⟨⟨Function.update links.next cell contents.next,
    Function.update links.prev cell contents.prev⟩, ?_,
    holds.congr (fun known linked => Function.update_of_ne (other linked) ..)
      (fun known linked => Function.update_of_ne (other linked) ..),
    fun known linked => ?_⟩
  · funext known
    by_cases same : known = cell
    · rw [same, Function.update_self, memory_of_present (Function.update_self ..)]
      dsimp only
      rw [Function.update_self, Function.update_self]
    · rw [Function.update_of_ne same]
      exact (memory_congr (Function.update_of_ne same ..)
        (Function.update_of_ne same ..) (Function.update_of_ne same ..)).symm
  · dsimp only
    rw [Function.update_of_ne (other linked)]
    exact here known linked

theorem represents_free (represents : Represents cells lists) {cell : Nat}
    (outside : ¬lists.family.Member cell) :
    Represents (Function.update cells cell none)
      ⟨Function.update lists.present cell false,
        Function.update lists.family cell none⟩ := by
  obtain ⟨links, rfl, holds, here⟩ := represents
  refine ⟨links, ?_, holds.forget cell, fun known linked => ?_⟩
  · funext known
    by_cases same : known = cell
    · rw [same, Function.update_self,
        memory_of_absent (Function.update_self ..)]
    · rw [Function.update_of_ne same]
      exact (memory_congr (Function.update_of_ne same ..) rfl rfl).symm
  · obtain ⟨header, members, found, mem⟩ := linked
    dsimp only at found ⊢
    have not_cell : header ≠ cell := by
      rintro rfl
      rw [Function.update_self] at found
      cases found
    rw [Function.update_of_ne not_cell] at found
    have different : known ≠ cell := by
      rintro rfl
      rcases List.mem_cons.mp mem with same | mem
      · exact not_cell same.symm
      · exact outside ⟨header, members, found, mem⟩
    rw [Function.update_of_ne different]
    exact here known ⟨header, members, found, mem⟩

theorem represents_initListHead (represents : Represents cells lists)
    {list : Nat} (present : lists.present list = true)
    (outside : ¬lists.family.Member list) :
    ∃ after, initListHead cells list = some after ∧
      Represents after { lists with family := lists.family.start list } := by
  obtain ⟨links, rfl, holds, here⟩ := represents
  refine ⟨_, initListHead_memory present, _, rfl, holds.start outside,
    fun known linked => ?_⟩
  rcases linked.of_update with ⟨members, found, mem⟩ | linked
  · rw [← Option.some.inj found] at mem
    rw [List.mem_singleton.mp mem]
    exact present
  · exact here known linked

theorem represents_listAddBetween (represents : Represents cells lists)
    {newPtr head : Nat} (fresh : lists.Fresh newPtr) (front back : List Nat)
    (found : lists.family head = some (front ++ back)) :
    ∃ after,
      listAddBetween cells newPtr (front.getLastD head) (back.headD head) =
        some after ∧
      Represents after
        { lists with
          family := Function.update lists.family head
            (some (front ++ newPtr :: back)) } := by
  obtain ⟨links, rfl, holds, here⟩ := represents
  have inside {cell : Nat} (mem : cell ∈ head :: (front ++ back)) :
      lists.family.Linked cell := ⟨head, _, found, mem⟩
  have left := inside (Links.getLastD_mem front head back)
  have right := inside (Links.headD_mem front head back)
  have other {cell : Nat} (linked : lists.family.Linked cell) :
      cell ≠ newPtr := by
    rintro rfl
    exact fresh.2 linked
  refine ⟨_, listAddBetween_memory fresh.1 (here _ left) (here _ right)
    (other left) (other right), _, rfl, holds.insert found fresh.2,
    fun known linked => ?_⟩
  rcases linked.of_update with ⟨members, same, mem⟩ | linked
  · rw [← Option.some.inj same] at mem
    by_cases is_new : known = newPtr
    · rw [is_new]
      exact fresh.1
    · refine here known (inside ?_)
      simp only [List.mem_cons, List.mem_append] at mem ⊢
      tauto
  · exact here known linked

/-- Where a head has some entries, changing them is an update. -/
theorem change_eq {family : Family Nat} {head : Nat} {members : List Nat}
    (found : family head = some members) (f : List Nat → List Nat) :
    family.change head f = Function.update family head (some (f members)) := by
  rw [Family.change, found, Option.map_some]

theorem represents_listAdd (represents : Represents cells lists)
    {newPtr head : Nat} (fresh : lists.Fresh newPtr)
    (isHead : (lists.family head).isSome) :
    ∃ after, listAdd cells newPtr head = some after ∧
      Represents after
        { lists with
          family := lists.family.change head fun members =>
            newPtr :: members } := by
  obtain ⟨members, found⟩ := Option.isSome_iff_exists.mp isHead
  obtain ⟨after, added, represents'⟩ :=
    represents_listAddBetween represents fresh [] members found
  obtain ⟨links, rfl, holds, here⟩ := represents
  have linked : lists.family.Linked head :=
    ⟨head, members, found, List.mem_cons_self⟩
  refine ⟨after, ?_, ?_⟩
  · rw [listAdd, memory_of_present (here head linked), Option.bind_eq_bind,
      Option.bind_some, (holds.ring found).next_header]
    exact added
  · rw [change_eq found]
    exact represents'

theorem represents_listAddTail (represents : Represents cells lists)
    {newPtr head : Nat} (fresh : lists.Fresh newPtr)
    (isHead : (lists.family head).isSome) :
    ∃ after, listAddTail cells newPtr head = some after ∧
      Represents after
        { lists with
          family := lists.family.change head fun members =>
            members ++ [newPtr] } := by
  obtain ⟨members, found⟩ := Option.isSome_iff_exists.mp isHead
  obtain ⟨after, added, represents'⟩ :=
    represents_listAddBetween represents fresh members []
      (found.trans (congrArg some (List.append_nil members).symm))
  obtain ⟨links, rfl, holds, here⟩ := represents
  have linked : lists.family.Linked head :=
    ⟨head, members, found, List.mem_cons_self⟩
  refine ⟨after, ?_, ?_⟩
  · rw [listAddTail, memory_of_present (here head linked),
      Option.bind_eq_bind, Option.bind_some, (holds.ring found).prev_header]
    exact added
  · rw [change_eq found]
    exact represents'

theorem represents_listDelEntry (represents : Represents cells lists)
    {entry : Nat} (member : lists.family.Member entry) :
    ∃ after, listDelEntry cells entry = some after ∧
      Represents after
        { lists with family := lists.family.erase entry } ∧
      ¬(lists.family.erase entry).Linked entry := by
  obtain ⟨links, rfl, holds, here⟩ := represents
  obtain ⟨erased, gone⟩ := holds.unlink member
  exact ⟨_, listDelEntry_memory (here _ member.linked)
      (here _ (holds.prev_linked member.linked))
      (here _ (holds.next_linked member.linked)),
    ⟨_, rfl, erased, fun known linked => here known linked.of_erase⟩, gone⟩

/-- Erasing an entry leaves the heads. -/
theorem isSome_erase {family : Family Nat} {head : Nat} (entry : Nat)
    (isHead : (family head).isSome) :
    (family.erase entry head).isSome := by
  rw [Family.erase, Option.isSome_map]
  exact isHead

/-- A cell that is not linked is no member. -/
theorem not_member {family : Family Nat} {cell : Nat}
    (not_linked : ¬family.Linked cell) : ¬family.Member cell :=
  fun member => not_linked member.linked

theorem represents_listDelInit (represents : Represents cells lists)
    {entry : Nat} (member : lists.family.Member entry) :
    ∃ after, listDelInit cells entry = some after ∧
      Represents after
        { lists with family := (lists.family.erase entry).start entry } := by
  have here := represents.choose_spec.2.2 entry member.linked
  obtain ⟨after, deleted, represents', gone⟩ :=
    represents_listDelEntry represents member
  obtain ⟨final, started, represents''⟩ :=
    represents_initListHead represents' here (not_member gone)
  refine ⟨final, ?_, represents''⟩
  rw [listDelInit, deleted, Option.bind_eq_bind, Option.bind_some, started]

theorem represents_listMove (represents : Represents cells lists)
    {list head : Nat} (member : lists.family.Member list)
    (isHead : (lists.family head).isSome) :
    ∃ after, listMove cells list head = some after ∧
      Represents after
        { lists with
          family := (lists.family.erase list).change head fun members =>
            list :: members } := by
  have here := represents.choose_spec.2.2 list member.linked
  obtain ⟨after, deleted, represents', gone⟩ :=
    represents_listDelEntry represents member
  obtain ⟨final, added, represents''⟩ :=
    represents_listAdd represents' ⟨here, gone⟩ (isSome_erase list isHead)
  refine ⟨final, ?_, represents''⟩
  rw [listMove, deleted, Option.bind_eq_bind, Option.bind_some, added]

theorem represents_listMoveTail (represents : Represents cells lists)
    {list head : Nat} (member : lists.family.Member list)
    (isHead : (lists.family head).isSome) :
    ∃ after, listMoveTail cells list head = some after ∧
      Represents after
        { lists with
          family := (lists.family.erase list).change head fun members =>
            members ++ [list] } := by
  have here := represents.choose_spec.2.2 list member.linked
  obtain ⟨after, deleted, represents', gone⟩ :=
    represents_listDelEntry represents member
  obtain ⟨final, added, represents''⟩ :=
    represents_listAddTail represents' ⟨here, gone⟩ (isSome_erase list isHead)
  refine ⟨final, ?_, represents''⟩
  rw [listMoveTail, deleted, Option.bind_eq_bind, Option.bind_some, added]

/-- What comes before the old cell once the new one has been put in front of what
is behind it. -/
theorem join_prev_linked {links : Links Nat} {old : Nat} (newPtr : Nat)
    (holds : links.Holds lists.family) (linked : lists.family.Linked old) :
    (links.join newPtr (links.next old)).prev old = newPtr ∨
      lists.family.Linked ((links.join newPtr (links.next old)).prev old) := by
  by_cases alone : old = links.next old
  · left
    rw [← alone]
    exact Function.update_self ..
  · right
    have same : (links.join newPtr (links.next old)).prev old =
        links.prev old := Function.update_of_ne alone ..
    rw [same]
    exact holds.prev_linked linked

theorem represents_listReplace (represents : Represents cells lists)
    {old newPtr : Nat} (linked : lists.family.Linked old)
    (fresh : lists.Fresh newPtr) :
    ∃ after, listReplace cells old newPtr = some after ∧
      Represents after
        { lists with family := lists.family.replace old newPtr } ∧
      ¬(lists.family.replace old newPtr).Linked old := by
  obtain ⟨links, rfl, holds, here⟩ := represents
  have before_here : lists.present
      ((links.join newPtr (links.next old)).prev old) = true := by
    rcases join_prev_linked newPtr holds linked with same | inside
    · rw [same]
      exact fresh.1
    · exact here _ inside
  refine ⟨_, listReplace_memory (here old linked) fresh.1
    (here _ (holds.next_linked linked)) before_here,
    ⟨_, rfl, holds.replace linked fresh.2, fun known inside => ?_⟩,
    holds.replace_not_linked linked fresh.2⟩
  rcases inside.of_replace with rfl | inside
  · exact fresh.1
  · exact here known inside

theorem represents_listReplaceInit (represents : Represents cells lists)
    {old newPtr : Nat} (linked : lists.family.Linked old)
    (fresh : lists.Fresh newPtr) :
    ∃ after, listReplaceInit cells old newPtr = some after ∧
      Represents after
        { lists with
          family := (lists.family.replace old newPtr).start old } := by
  have here := represents.choose_spec.2.2 old linked
  obtain ⟨after, replaced, represents', gone⟩ :=
    represents_listReplace represents linked fresh
  obtain ⟨final, started, represents''⟩ :=
    represents_initListHead represents' here (not_member gone)
  refine ⟨final, ?_, represents''⟩
  rw [listReplaceInit, replaced, Option.bind_eq_bind, Option.bind_some,
    started]

/-- A list is empty if and only if its head is followed by itself. -/
theorem listEmpty_eq (represents : Represents cells lists) {head : Nat}
    {members : List Nat} (found : lists.family head = some members) :
    listEmpty cells head = some members.isEmpty := by
  obtain ⟨links, rfl, holds, here⟩ := represents
  have ring := holds.ring found
  have linked : lists.family.Linked head :=
    ⟨head, members, found, List.mem_cons_self⟩
  rw [listEmpty, memory_of_present (here head linked), Option.bind_eq_bind,
    Option.bind_some, ring.next_header]
  cases members with
  | nil => exact congrArg some (beq_self_eq_true head)
  | cons first rest =>
      refine congrArg some (beq_eq_false_iff_ne.mpr fun same => ?_)
      have same : first = head := same
      exact (List.nodup_cons.mp ring.distinct).1 (same ▸ List.mem_cons_self)

theorem represents_listRotateLeft (represents : Represents cells lists)
    {head : Nat} (isHead : (lists.family head).isSome) :
    ∃ after, listRotateLeft cells head = some after ∧
      Represents after
        { lists with
          family := lists.family.change head fun members =>
            members.rotate 1 } := by
  obtain ⟨members, found⟩ := Option.isSome_iff_exists.mp isHead
  have empty := listEmpty_eq represents found
  rw [listRotateLeft, empty, Option.bind_eq_bind, Option.bind_some,
    change_eq found]
  cases members with
  | nil =>
      refine ⟨cells, rfl, ?_⟩
      rw [List.rotate_nil, ← found, Function.update_eq_self]
      exact represents
  | cons first rest =>
      have linked : lists.family.Linked head :=
        ⟨head, _, found, List.mem_cons_self⟩
      obtain ⟨after, moved, represents'⟩ := represents_listMoveTail represents
        ⟨head, _, found, List.mem_cons_self⟩ isHead
      obtain ⟨links, rfl, holds, here⟩ := represents
      have split : lists.family head = some ([] ++ first :: rest) := found
      have erased := holds.erase_eq split
      refine ⟨after, ?_, ?_⟩
      · rw [memory_of_present (here head linked)]
        dsimp only [List.isEmpty]
        rw [if_neg Bool.false_ne_true, Option.bind_eq_bind, Option.bind_some,
          (holds.ring found).next_header]
        exact moved
      · rw [erased, change_eq (Function.update_self ..),
          Function.update_idem] at represents'
        rw [List.rotate_cons_succ, List.rotate_zero]
        exact represents'

end Operations

/-! ## Runs -/

/-- Operations one after the other. -/
def run (cells : Cells) (operations : List Operation) : Option Cells :=
  operations.foldlM Operation.run cells

/-- What the operations are for. -/
def Lists.after (lists : Lists) (operations : List Operation) : Lists :=
  operations.foldl Operation.apply lists

/-- Each operation is used where it may be used. -/
def Lists.Admits : Lists → List Operation → Prop
  | _, [] => True
  | lists, operation :: operations =>
      operation.Admissible lists ∧ (operation.apply lists).Admits operations

/-- One operation does what it is for. -/
theorem represents_run_one {cells : Cells} {lists : Lists}
    (represents : Represents cells lists) (operation : Operation)
    (admissible : operation.Admissible lists) :
    ∃ after, operation.run cells = some after ∧
      Represents after (operation.apply lists) := by
  cases operation with
  | malloc cell contents =>
      exact ⟨_, rfl, represents_malloc represents admissible contents⟩
  | free cell =>
      obtain ⟨links, same, -⟩ := id represents
      refine ⟨_, ?_, represents_free represents admissible.2⟩
      have here : cells cell = some ⟨links.next cell, links.prev cell⟩ := by
        rw [same]
        exact memory_of_present admissible.1
      rw [Operation.run, here, Option.map_some]
  | initListHead list =>
      exact represents_initListHead represents admissible.1 admissible.2
  | listAdd newPtr head =>
      exact represents_listAdd represents admissible.1 admissible.2
  | listAddTail newPtr head =>
      exact represents_listAddTail represents admissible.1 admissible.2
  | listDel entry =>
      obtain ⟨after, deleted, represents', -⟩ :=
        represents_listDelEntry represents admissible
      exact ⟨after, deleted, represents'⟩
  | listDelInit entry => exact represents_listDelInit represents admissible
  | listReplace old newPtr =>
      obtain ⟨after, replaced, represents', -⟩ :=
        represents_listReplace represents admissible.1 admissible.2
      exact ⟨after, replaced, represents'⟩
  | listReplaceInit old newPtr =>
      exact represents_listReplaceInit represents admissible.1 admissible.2
  | listMove list head =>
      exact represents_listMove represents admissible.1 admissible.2
  | listMoveTail list head =>
      exact represents_listMoveTail represents admissible.1 admissible.2
  | listRotateLeft head =>
      exact represents_listRotateLeft represents admissible

/-- A run of operations does what it is for. -/
theorem represents_run {cells : Cells} {lists : Lists}
    (represents : Represents cells lists) (operations : List Operation)
    (admits : lists.Admits operations) :
    ∃ after, run cells operations = some after ∧
      Represents after (lists.after operations) := by
  induction operations generalizing cells lists with
  | nil => exact ⟨cells, rfl, represents⟩
  | cons operation operations inductionHypothesis =>
      obtain ⟨middle, ran, represents'⟩ :=
        represents_run_one represents operation admits.1
      obtain ⟨after, rest, represents''⟩ :=
        inductionHypothesis represents' admits.2
      refine ⟨after, ?_, represents''⟩
      rw [run, List.foldlM_cons, ran, Option.bind_eq_bind, Option.bind_some]
      exact rest

/-! ## Iterations -/

section Iterations

variable {cells : Cells} {lists : Lists} {head : Nat} {members : List Nat}

/-- An iteration along a chain of cells that leads to the head. -/
theorem visit_eq {follow : ListHead → Nat} {step : Nat → Nat}
    (reads : ∀ cell ∈ members, ∃ contents, cells cell = some contents ∧
      follow contents = step cell)
    (chain : List.IsChain (fun first second => step first = second)
      (members ++ [head]))
    (absent : head ∉ members) {fuel : Nat} (enough : members.length < fuel) :
    visit follow cells head fuel (members.headD head) = some members := by
  induction members generalizing fuel with
  | nil =>
      obtain ⟨fuel, rfl⟩ := Nat.exists_eq_add_one_of_ne_zero enough.ne'
      exact if_pos rfl
  | cons first rest inductionHypothesis =>
      obtain ⟨fuel, rfl⟩ := Nat.exists_eq_add_one_of_ne_zero
        (Nat.ne_of_gt (Nat.zero_lt_of_lt enough))
      obtain ⟨contents, read, followed⟩ := reads first List.mem_cons_self
      have onward : step first = rest.headD head := by
        cases rest with
        | nil => exact (List.isChain_cons_cons.mp chain).1
        | cons second rest => exact (List.isChain_cons_cons.mp chain).1
      have later := inductionHypothesis
        (fun cell mem => reads cell (List.mem_cons_of_mem _ mem)) chain.tail
        (fun mem => absent (List.mem_cons_of_mem _ mem))
        (Nat.lt_of_succ_lt_succ enough)
      have not_head : first ≠ head := by
        rintro rfl
        exact absent List.mem_cons_self
      rw [List.headD_cons, visit, if_neg not_head, read, Option.bind_eq_bind,
        Option.bind_some, followed, onward, later]
      rfl

/-- `list_for_each` visits the entries in order. -/
theorem listForEach_eq (represents : Represents cells lists)
    (found : lists.family head = some members) {fuel : Nat}
    (enough : members.length < fuel) :
    listForEach cells head fuel = some members := by
  obtain ⟨links, rfl, holds, here⟩ := represents
  have ring := holds.ring found
  have present {cell : Nat} (mem : cell ∈ head :: members) :
      lists.present cell = true := here cell ⟨head, members, found, mem⟩
  rw [listForEach, memory_of_present (present List.mem_cons_self),
    Option.bind_eq_bind, Option.bind_some, ring.next_header]
  refine visit_eq (fun cell mem => ⟨_,
    memory_of_present (present (List.mem_cons_of_mem _ mem)), rfl⟩) ?_
    (List.nodup_cons.mp ring.distinct).1 enough
  exact ring.chain.tail.imp fun first second adjacent => adjacent.1

/-- `list_for_each_prev` visits the entries the other way round. -/
theorem listForEachPrev_eq (represents : Represents cells lists)
    (found : lists.family head = some members) {fuel : Nat}
    (enough : members.length < fuel) :
    listForEachPrev cells head fuel = some members.reverse := by
  obtain ⟨links, rfl, holds, here⟩ := represents
  have ring := (holds.ring found).swap
  have present {cell : Nat} (mem : cell ∈ head :: members) :
      lists.present cell = true := here cell ⟨head, members, found, mem⟩
  have first : links.prev head = members.reverse.headD head :=
    ring.next_header
  rw [listForEachPrev, memory_of_present (present List.mem_cons_self),
    Option.bind_eq_bind, Option.bind_some, first]
  refine visit_eq (fun cell mem => ⟨_, memory_of_present
    (present (List.mem_cons_of_mem _ (List.mem_reverse.mp mem))), rfl⟩) ?_
    (List.nodup_cons.mp ring.distinct).1
    (List.length_reverse.trans_lt enough)
  exact ring.chain.tail.imp fun first second adjacent => adjacent.1

/-- `list_empty_careful` agrees with `list_empty`. -/
theorem listEmptyCareful_eq (represents : Represents cells lists)
    (found : lists.family head = some members) :
    listEmptyCareful cells head = some members.isEmpty := by
  have empty := listEmpty_eq represents found
  obtain ⟨links, rfl, holds, here⟩ := represents
  have ring := holds.ring found
  have present := here head ⟨head, members, found, List.mem_cons_self⟩
  rw [listEmpty, memory_of_present present, Option.bind_eq_bind,
    Option.bind_some] at empty
  rw [listEmptyCareful, memory_of_present present, Option.bind_eq_bind,
    Option.bind_some]
  have decided := Option.some.inj empty
  dsimp only at decided ⊢
  rw [decided, ring.next_header, ring.prev_header]
  cases members with
  | nil => exact congrArg some (beq_self_eq_true head)
  | cons first rest => rfl

/-- A list is singular if it has one entry. -/
theorem listIsSingular_eq (represents : Represents cells lists)
    (found : lists.family head = some members) :
    listIsSingular cells head = some (members.length == 1) := by
  have empty := listEmpty_eq represents found
  obtain ⟨links, rfl, holds, here⟩ := represents
  have ring := holds.ring found
  have present := here head ⟨head, members, found, List.mem_cons_self⟩
  rw [listIsSingular, empty, Option.bind_eq_bind, Option.bind_some,
    memory_of_present present, Option.bind_eq_bind, Option.bind_some]
  dsimp only
  rw [ring.next_header, ring.prev_header]
  have distinct := (List.nodup_cons.mp ring.distinct).2
  cases members with
  | nil => rfl
  | cons first rest =>
      cases rest with
      | nil => exact congrArg some (beq_self_eq_true first)
      | cons second rest =>
          refine congrArg some (beq_eq_false_iff_ne.mpr fun same => ?_)
          refine (List.nodup_cons.mp distinct).1 ?_
          have last : first = (first :: second :: rest).getLastD head := same
          rw [List.getLastD_cons, List.getLastD_cons] at last
          rw [last]
          exact List.getLastD_mem_cons

/-- An entry is the last one if the head follows it. -/
theorem listIsLast_eq (represents : Represents cells lists)
    (found : lists.family head = some members) {entry : Nat}
    (mem : entry ∈ members) :
    listIsLast cells entry head =
      some (decide (members.getLast? = some entry)) := by
  obtain ⟨links, rfl, holds, here⟩ := represents
  have ring := holds.ring found
  have present := here entry
    ⟨head, members, found, List.mem_cons_of_mem _ mem⟩
  obtain ⟨front, back, rfl⟩ := List.append_of_mem mem
  rw [listIsLast, memory_of_present present, Option.bind_eq_bind,
    Option.bind_some]
  refine congrArg some ?_
  dsimp only
  rw [ring.next_eq]
  have distinct := ring.distinct
  rw [← List.cons_append, List.nodup_append] at distinct
  obtain ⟨-, distinct, apart⟩ := distinct
  cases back with
  | nil =>
      rw [List.getLast?_concat, decide_eq_true rfl]
      exact beq_self_eq_true head
  | cons second back =>
      have not_head : second ≠ head := fun same =>
        apart head List.mem_cons_self second (by simp) same.symm
      have not_last : (front ++ entry :: second :: back).getLast? ≠
          some entry := by
        rw [List.getLast?_append, List.getLast?_cons_cons, List.getLast?_cons,
          Option.some_or, ← List.getLastD_eq_getLast?]
        intro same
        refine (List.nodup_cons.mp distinct).1 ?_
        rw [← Option.some.inj same]
        exact List.getLastD_mem_cons
      rw [decide_eq_false not_last]
      exact beq_eq_false_iff_ne.mpr not_head

end Iterations

/-! ## Release -/

/-- The lists once the entries of a head have been freed. -/
def Lists.emptied (lists : Lists) (head : Nat) (members : List Nat) : Lists :=
  ⟨fun cell => lists.present cell && !members.contains cell,
    Function.update lists.family head (some [])⟩

section Release

variable {cells : Cells} {lists : Lists} {head : Nat} {members : List Nat}

/-- Taking out the first entry and freeing it. -/
theorem represents_release_one {first : Nat} {rest : List Nat}
    (represents : Represents cells lists)
    (found : lists.family head = some (first :: rest)) :
    ∃ after, listDel cells first = some after ∧
      Represents (Function.update after first none)
        ⟨Function.update lists.present first false,
          Function.update lists.family head (some rest)⟩ := by
  obtain ⟨links, -, holds, -⟩ := id represents
  have split : lists.family head = some ([] ++ first :: rest) := found
  obtain ⟨after, deleted, represents', gone⟩ := represents_listDelEntry
    represents ⟨head, _, found, List.mem_cons_self⟩
  have freed := represents_free represents' (not_member gone)
  have kept : Function.update (lists.family.erase first) first none =
      Function.update lists.family head (some rest) := by
    rw [← Family.eq_none_of_not_linked gone, Function.update_eq_self]
    exact holds.erase_eq split
  dsimp only at freed
  rw [kept] at freed
  exact ⟨after, deleted, freed⟩

theorem emptied_cons {first : Nat} {rest : List Nat} :
    Lists.emptied ⟨Function.update lists.present first false,
      Function.update lists.family head (some rest)⟩ head rest =
      lists.emptied head (first :: rest) := by
  unfold Lists.emptied
  congr 1
  · funext cell
    dsimp only
    by_cases same : cell = first
    · rw [same, Function.update_self, Bool.false_and, List.contains_cons,
        beq_self_eq_true, Bool.true_or, Bool.not_true, Bool.and_false]
    · rw [Function.update_of_ne same, List.contains_cons,
        beq_eq_false_iff_ne.mpr same, Bool.false_or]
  · exact Function.update_idem ..

/-- The loop frees the entries one after the other. -/
theorem releaseLoop_eq (keys : Nat → Option Nat)
    (represents : Represents cells lists)
    (found : lists.family head = some members) {contents : ListHead}
    (read : cells (members.headD head) = some contents) {fuel : Nat}
    (enough : members.length < fuel) :
    ∃ after,
      releaseLoop keys head fuel cells (members.headD head) contents.next =
        some (after, members.flatMap fun entry =>
          (keys entry).toList ++ [entry]) ∧
      Represents after (lists.emptied head members) := by
  induction members generalizing cells lists contents fuel with
  | nil =>
      obtain ⟨fuel, rfl⟩ := Nat.exists_eq_add_one_of_ne_zero enough.ne'
      refine ⟨cells, if_pos rfl, ?_⟩
      have same : lists.emptied head [] = lists := by
        unfold Lists.emptied
        rw [← found, Function.update_eq_self]
        congr 1
        funext cell
        exact Bool.and_true _
      rw [same]
      exact represents
  | cons first rest inductionHypothesis =>
      obtain ⟨fuel, rfl⟩ := Nat.exists_eq_add_one_of_ne_zero
        (Nat.ne_of_gt (Nat.zero_lt_of_lt enough))
      obtain ⟨after, deleted, represents'⟩ :=
        represents_release_one represents found
      obtain ⟨links, same, holds, here⟩ := id represents
      have ring := holds.ring found
      have onward : contents.next = rest.headD head := by
        have split : links.Ring head ([] ++ first :: rest) := ring
        rw [same, List.headD_cons, memory_of_present
          (here first ⟨head, _, found, by simp⟩)] at read
        rw [← Option.some.inj read]
        exact split.next_eq
      have found' : (Function.update lists.family head (some rest)) head =
          some rest := Function.update_self ..
      obtain ⟨links', same', holds', here'⟩ := id represents'
      have read' : Function.update after first none (rest.headD head) =
          some ⟨links'.next (rest.headD head),
            links'.prev (rest.headD head)⟩ := by
        rw [same']
        exact memory_of_present (here' (rest.headD head)
          ⟨head, rest, found', Links.headD_mem [] head rest⟩)
      obtain ⟨final, released, represents''⟩ := inductionHypothesis represents'
        found' read' (Nat.lt_of_succ_lt_succ enough)
      refine ⟨final, ?_, emptied_cons ▸ represents''⟩
      have not_head : first ≠ head := by
        rintro rfl
        exact (List.nodup_cons.mp ring.distinct).1 List.mem_cons_self
      rw [List.headD_cons, releaseLoop, if_neg not_head, deleted,
        Option.bind_eq_bind, Option.bind_some, onward]
      dsimp only at released ⊢
      rw [read', Option.bind_eq_bind, Option.bind_some, released,
        Option.bind_eq_bind, Option.bind_some, List.flatMap_cons,
        List.append_assoc]
      rfl

/-- `LITE_json_keys_release` frees each entry behind its text and leaves a head
without entries. -/
theorem liteJsonKeysRelease_eq (represents : Represents cells lists)
    (found : lists.family head = some members) (keys : Nat → Option Nat)
    {fuel : Nat} (enough : members.length < fuel) :
    ∃ after,
      liteJsonKeysRelease cells keys head fuel =
        some (after, members.flatMap fun entry =>
          (keys entry).toList ++ [entry]) ∧
      Represents after (lists.emptied head members) := by
  obtain ⟨links, same, holds, here⟩ := id represents
  have head_here := here head ⟨head, members, found, List.mem_cons_self⟩
  have read : cells (members.headD head) =
      some ⟨links.next (members.headD head),
        links.prev (members.headD head)⟩ := by
    rw [same]
    exact memory_of_present (here (members.headD head)
      ⟨head, members, found, Links.headD_mem [] head members⟩)
  obtain ⟨after, released, represents'⟩ :=
    releaseLoop_eq keys represents found read enough
  refine ⟨after, ?_, represents'⟩
  have first : cells head =
      some ⟨members.headD head, links.prev head⟩ := by
    rw [same, memory_of_present head_here, (holds.ring found).next_header]
  rw [liteJsonKeysRelease, first, Option.bind_eq_bind, Option.bind_some, read,
    Option.bind_some, released]

end Release

/-! ## What is seen of a list -/

/-- The iterations and the tests say that the head has these entries. -/
structure Shows (cells : Cells) (head : Nat) (members : List Nat) :
    Prop where
  forwards : ∀ fuel, members.length < fuel →
    listForEach cells head fuel = some members
  backwards : ∀ fuel, members.length < fuel →
    listForEachPrev cells head fuel = some members.reverse
  empty : listEmpty cells head = some members.isEmpty
  emptyCareful : listEmptyCareful cells head = some members.isEmpty
  singular : listIsSingular cells head = some (members.length == 1)
  last : ∀ entry ∈ members,
    listIsLast cells entry head =
      some (decide (members.getLast? = some entry))

/-- What the memory represents is what is seen. -/
theorem Represents.shows {cells : Cells} {lists : Lists}
    (represents : Represents cells lists) {head : Nat} {members : List Nat}
    (found : lists.family head = some members) : Shows cells head members where
  forwards _ enough := listForEach_eq represents found enough
  backwards _ enough := listForEachPrev_eq represents found enough
  empty := listEmpty_eq represents found
  emptyCareful := listEmptyCareful_eq represents found
  singular := listIsSingular_eq represents found
  last _ mem := listIsLast_eq represents found mem

/-- There is no structure at first. -/
def Lists.none : Lists := ⟨fun _ => false, fun _ => Option.none⟩

theorem represents_none : Represents (fun _ => none) Lists.none := by
  refine ⟨⟨id, id⟩, rfl, Links.holds_none _, ?_⟩
  rintro cell ⟨header, members, found, -⟩
  cases found

/-- However lists are made and changed, the functions never follow a pointer to
what was freed, and each head has the entries that it should have.  When the
entries of one head are released, each is freed once and the other lists keep
theirs. -/
theorem run_shows (operations : List Operation)
    (admits : Lists.none.Admits operations) :
    ∃ cells, run (fun _ => none) operations = some cells ∧
      ∀ head members,
        (Lists.none.after operations).family head = some members →
          Shows cells head members ∧
          ∀ keys fuel, members.length < fuel →
            ∃ after,
              liteJsonKeysRelease cells keys head fuel =
                some (after, members.flatMap fun entry =>
                  (keys entry).toList ++ [entry]) ∧
              (∀ entry ∈ members, after entry = none) ∧
              Shows after head [] ∧
              ∀ other others, other ≠ head →
                (Lists.none.after operations).family other = some others →
                  Shows after other others := by
  obtain ⟨cells, ran, represents⟩ :=
    represents_run represents_none operations admits
  refine ⟨cells, ran, fun head members found => ⟨represents.shows found,
    fun keys fuel enough => ?_⟩⟩
  obtain ⟨after, released, represents'⟩ :=
    liteJsonKeysRelease_eq represents found keys enough
  refine ⟨after, released, fun entry mem => ?_,
    represents'.shows (Function.update_self ..),
    fun other others different present => represents'.shows ?_⟩
  · obtain ⟨links, rfl, -, -⟩ := represents'
    refine memory_of_absent ?_
    have inside : members.contains entry = true :=
      List.contains_iff_mem.mpr mem
    dsimp only [Lists.emptied]
    rw [inside]
    exact Bool.and_false _
  · rw [← present]
    exact Function.update_of_ne different ..

/-! ## Whether a run is admitted -/

/-- The structures that an operation names. -/
def Operation.cells : Operation → List Nat
  | malloc cell _ | free cell | initListHead cell | listDel cell
  | listDelInit cell | listRotateLeft cell => [cell]
  | listAdd newPtr head | listAddTail newPtr head => [newPtr, head]
  | listReplace old newPtr | listReplaceInit old newPtr => [old, newPtr]
  | listMove list head | listMoveTail list head => [list, head]

/-- Only what an operation names becomes a head. -/
theorem Operation.within_apply {lists : Lists} {known : List Nat}
    (within : lists.family.Within known) (operation : Operation)
    (named : ∀ cell ∈ operation.cells, cell ∈ known) :
    (operation.apply lists).family.Within known := by
  cases operation with
  | malloc cell contents => exact within
  | free cell => exact within.update fun found => nomatch found
  | initListHead list => exact within.start (named list (by simp [cells]))
  | listAdd newPtr head => exact within.change head _
  | listAddTail newPtr head => exact within.change head _
  | listDel entry => exact within.erase entry
  | listDelInit entry =>
      exact (within.erase entry).start (named entry (by simp [cells]))
  | listReplace old newPtr =>
      exact within.replace (named newPtr (by simp [cells])) old
  | listReplaceInit old newPtr =>
      exact (within.replace (named newPtr (by simp [cells])) old).start
        (named old (by simp [cells]))
  | listMove list head => exact (within.erase list).change head _
  | listMoveTail list head => exact (within.erase list).change head _
  | listRotateLeft head => exact within.change head _

/-- With finitely many heads an operation is checked by going through them. -/
def Operation.decidableAdmissible {lists : Lists} {known : List Nat}
    (within : lists.family.Within known) (operation : Operation) :
    Decidable (operation.Admissible lists) :=
  have (cell : Nat) : Decidable (lists.family.Linked cell) :=
    decidable_of_iff _ within.linked_iff.symm
  have member (cell : Nat) : Decidable (lists.family.Member cell) :=
    decidable_of_iff _ within.member_iff.symm
  match operation with
  | malloc cell _ => inferInstanceAs (Decidable (lists.present cell = false))
  | free cell | initListHead cell =>
      inferInstanceAs
        (Decidable (lists.present cell = true ∧ ¬lists.family.Member cell))
  | listAdd newPtr head | listAddTail newPtr head =>
      inferInstanceAs (Decidable ((lists.present newPtr = true ∧
        ¬lists.family.Linked newPtr) ∧ (lists.family head).isSome))
  | listDel entry | listDelInit entry => member entry
  | listReplace old newPtr | listReplaceInit old newPtr =>
      inferInstanceAs (Decidable (lists.family.Linked old ∧
        lists.present newPtr = true ∧ ¬lists.family.Linked newPtr))
  | listMove list head | listMoveTail list head =>
      inferInstanceAs (Decidable (lists.family.Member list ∧
        (lists.family head).isSome))
  | listRotateLeft head =>
      inferInstanceAs (Decidable ((lists.family head).isSome))

/-- So is a run. -/
def Lists.decidableAdmits (known : List Nat) :
    (lists : Lists) → (operations : List Operation) →
      lists.family.Within known →
        (∀ operation ∈ operations, ∀ cell ∈ operation.cells, cell ∈ known) →
          Decidable (lists.Admits operations)
  | _, [], _, _ => isTrue trivial
  | lists, operation :: operations, within, named =>
      have := operation.decidableAdmissible within
      have := decidableAdmits known (operation.apply lists) operations
        (operation.within_apply within (named operation List.mem_cons_self))
        fun other mem => named other (List.mem_cons_of_mem _ mem)
      inferInstanceAs (Decidable (operation.Admissible lists ∧
        (operation.apply lists).Admits operations))

instance (operations : List Operation) :
    Decidable (Lists.none.Admits operations) :=
  Lists.decidableAdmits (operations.flatMap Operation.cells) Lists.none
    operations (fun _ found => nomatch found)
    fun operation mem _ named => List.mem_flatMap.mpr ⟨operation, mem, named⟩

/-- Two heads, and entries that are moved, replaced, rotated, taken out and
freed. -/
def severalOperations : List Operation :=
  [.malloc 1 ⟨0, 0⟩, .malloc 2 ⟨0, 0⟩, .initListHead 1, .initListHead 2,
    .malloc 11 ⟨0, 0⟩, .malloc 12 ⟨0, 0⟩, .malloc 13 ⟨0, 0⟩,
    .malloc 14 ⟨0, 0⟩, .malloc 15 ⟨0, 0⟩, .listAddTail 11 1,
    .listAddTail 12 1, .listAdd 13 1, .listAddTail 15 2, .listMove 12 2,
    .listMoveTail 11 2, .listReplace 12 14, .listAdd 12 1, .listRotateLeft 2,
    .listDel 13, .free 13]

/-- What they leave, and what the release of one head leaves then. -/
theorem run_shows_several :
    ∃ cells, run (fun _ => none) severalOperations = some cells ∧
      Shows cells 1 [12] ∧ Shows cells 2 [15, 11, 14] ∧
      ∃ after,
        liteJsonKeysRelease cells (fun entry => some (entry + 100)) 2 4 =
          some (after, [115, 15, 111, 11, 114, 14]) ∧
        Shows after 2 [] ∧ Shows after 1 [12] := by
  obtain ⟨cells, ran, shows⟩ := run_shows severalOperations (by decide)
  obtain ⟨second, released⟩ := shows 2 [15, 11, 14] rfl
  obtain ⟨after, freed, -, emptied, others⟩ :=
    released (fun entry => some (entry + 100)) 4 (by decide)
  exact ⟨cells, ran, (shows 1 [12] rfl).1, second, after, freed, emptied,
    others 1 [12] (by decide) rfl⟩

end LiteList
end UIoT
