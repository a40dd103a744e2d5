import Mathlib.Data.List.Chain
import Mathlib.Data.List.Nodup
import Mathlib.Logic.Function.Basic

/-!
# Rings of cells linked both ways

A doubly linked list with a header is a ring: the header is followed by the
first cell and preceded by the last one.  A list whose ends are marked by null
pointers is a ring through the null pointer, the record of its ends being the
cell there.

Joining two cells makes them neighbours.  It takes out what was between them,
and joined to a new cell on either side they let it in.
-/

namespace LinkedRing

universe u

/-- The neighbours of each cell. -/
@[ext] structure Links (P : Type u) where
  next : P → P
  prev : P → P

variable {P : Type u}

namespace Links

/-- The second cell follows the first. -/
def Adjacent (links : Links P) (first second : P) : Prop :=
  links.next first = second ∧ links.prev second = first

/-- The members follow the header one after the other and lead back to it. -/
structure Ring (links : Links P) (header : P) (members : List P) : Prop where
  chain : List.IsChain links.Adjacent (header :: (members ++ [header]))
  distinct : (header :: members).Nodup

/-! ## Neighbours -/

section Neighbours

variable {links : Links P} {header : P}

/-- A ring splits at each of its members. -/
theorem Ring.split {front back : List P} {cell : P}
    (ring : links.Ring header (front ++ cell :: back)) :
    List.IsChain links.Adjacent (header :: (front ++ [cell])) ∧
      List.IsChain links.Adjacent (cell :: (back ++ [header])) := by
  have chain := ring.chain
  rw [List.append_assoc, List.cons_append] at chain
  exact List.isChain_cons_split.mp chain

/-- The first of a chain is followed by the next one. -/
theorem adjacent_headD {cell : P} {rest : List P} {last : P}
    (chain : List.IsChain links.Adjacent (cell :: (rest ++ [last]))) :
    links.Adjacent cell (rest.headD last) := by
  cases rest with
  | nil => exact (List.isChain_cons_cons.mp chain).1
  | cons second rest => exact (List.isChain_cons_cons.mp chain).1

/-- The last of a chain follows the one before. -/
theorem adjacent_getLastD {first : P} {rest : List P} {cell : P}
    (chain : List.IsChain links.Adjacent (first :: (rest ++ [cell]))) :
    links.Adjacent (rest.getLastD first) cell := by
  induction rest generalizing first with
  | nil => exact (List.isChain_cons_cons.mp chain).1
  | cons second rest inductionHypothesis =>
      have later := inductionHypothesis (List.isChain_cons_cons.mp chain).2
      rw [List.getLastD_cons]
      exact later

/-- What follows a member of a ring. -/
theorem Ring.next_eq {front back : List P} {cell : P}
    (ring : links.Ring header (front ++ cell :: back)) :
    links.next cell = back.headD header :=
  (adjacent_headD ring.split.2).1

/-- What comes before a member of a ring. -/
theorem Ring.prev_eq {front back : List P} {cell : P}
    (ring : links.Ring header (front ++ cell :: back)) :
    links.prev cell = front.getLastD header :=
  (adjacent_getLastD ring.split.1).2

/-- The header is followed by the first member. -/
theorem Ring.next_header {members : List P}
    (ring : links.Ring header members) :
    links.next header = members.headD header :=
  (adjacent_headD ring.chain).1

/-- The last member comes before the header. -/
theorem Ring.prev_header {members : List P}
    (ring : links.Ring header members) :
    links.prev header = members.getLastD header :=
  (adjacent_getLastD ring.chain).2

/-- A ring is a matter of its own cells. -/
theorem Ring.congr {other : Links P} {members : List P}
    (ring : links.Ring header members)
    (next : ∀ cell ∈ header :: members, other.next cell = links.next cell)
    (prev : ∀ cell ∈ header :: members, other.prev cell = links.prev cell) :
    other.Ring header members := by
  refine ⟨ring.chain.imp_of_mem_imp fun first second first_mem second_mem => ?_,
    ring.distinct⟩
  have own : ∀ cell ∈ header :: (members ++ [header]),
      cell ∈ header :: members := by
    intro cell mem
    simp only [List.mem_cons, List.mem_append, List.not_mem_nil, or_false]
      at mem ⊢
    rcases mem with same | mem | same
    · exact .inl same
    · exact .inr mem
    · exact .inl same
  intro adjacent
  exact ⟨(next first (own _ first_mem)).trans adjacent.1,
    (prev second (own _ second_mem)).trans adjacent.2⟩

/-- No cell but the header is in an empty ring. -/
theorem ring_nil (next : links.next header = header)
    (prev : links.prev header = header) : links.Ring header [] :=
  ⟨List.isChain_cons_cons.mpr ⟨⟨next, prev⟩, List.isChain_singleton _⟩,
    List.nodup_singleton _⟩

/-- Two chains make one where the end of the first is followed by the beginning
of the second. -/
theorem isChain_joined {first : P} {front back : List P}
    (before : List.IsChain links.Adjacent (first :: front))
    (behind : List.IsChain links.Adjacent back)
    (joined : ∀ second ∈ back.head?,
      links.Adjacent (front.getLastD first) second) :
    List.IsChain links.Adjacent (first :: (front ++ back)) := by
  rw [← List.cons_append]
  refine before.append behind fun last is_last second is_second => ?_
  rw [List.getLast?_cons, Option.mem_some_iff, ← List.getLastD_eq_getLast?]
    at is_last
  rw [← is_last]
  exact joined second is_second

/-- What a part of a ring begins with that leads back to the header. -/
theorem head?_append_header (back : List P) (header : P) :
    (back ++ [header]).head? = some (back.headD header) := by
  cases back <;> rfl

/-- What follows the first part of a ring is in none of the two parts behind
it. -/
theorem headD_not_mem {front back : List P}
    (distinct : (header :: (front ++ back)).Nodup) :
    back.headD header ∉ front ∧
      back.headD header ∉ (back ++ [header]).tail := by
  obtain ⟨absent, distinct⟩ := List.nodup_cons.mp distinct
  obtain ⟨-, back_distinct, disjoint⟩ := List.nodup_append.mp distinct
  rw [List.mem_append, not_or] at absent
  cases back with
  | nil => exact ⟨absent.1, List.not_mem_nil⟩
  | cons second back =>
      constructor
      · exact fun mem => disjoint _ mem _ (List.mem_cons_self ..) rfl
      · intro mem
        rcases List.mem_append.mp mem with mem | same
        · exact (List.nodup_cons.mp back_distinct).1 mem
        · have same : second = header := List.mem_singleton.mp same
          exact absent.2 (same ▸ List.mem_cons_self ..)

/-- The links the other way round. -/
def swap (links : Links P) : Links P := ⟨links.prev, links.next⟩

/-- The other way round, a ring has its members in reverse order. -/
theorem Ring.swap {members : List P} (ring : links.Ring header members) :
    links.swap.Ring header members.reverse := by
  have around : (header :: (members ++ [header])).reverse =
      header :: (members.reverse ++ [header]) := by simp
  constructor
  · rw [← around, List.isChain_reverse]
    exact ring.chain.imp fun first second adjacent =>
      ⟨adjacent.2, adjacent.1⟩
  · have distinct := List.nodup_cons.mp ring.distinct
    exact List.nodup_cons.mpr
      ⟨fun mem => distinct.1 (List.mem_reverse.mp mem),
        List.nodup_reverse.mpr distinct.2⟩

end Neighbours

/-! ## Joining -/

variable [DecidableEq P]

/-- Make the second cell the one behind the first. -/
def join (links : Links P) (first second : P) : Links P where
  next := Function.update links.next first second
  prev := Function.update links.prev second first

theorem join_adjacent (links : Links P) (first second : P) :
    (links.join first second).Adjacent first second :=
  ⟨Function.update_self .., Function.update_self ..⟩

/-- Other neighbours stay neighbours. -/
theorem Adjacent.join_of_ne {links : Links P} {first second : P}
    (adjacent : links.Adjacent first second) {left right : P}
    (first_ne : first ≠ left) (second_ne : second ≠ right) :
    (links.join left right).Adjacent first second :=
  ⟨(Function.update_of_ne first_ne ..).trans adjacent.1,
    (Function.update_of_ne second_ne ..).trans adjacent.2⟩

/-- Take a cell out. -/
def unlink (links : Links P) (cell : P) : Links P :=
  links.join (links.prev cell) (links.next cell)

/-- Let a cell in between two others. -/
def insert (links : Links P) (left cell right : P) : Links P :=
  (links.join left cell).join cell right

section Rings

variable {links : Links P} {header : P}

/-- Neighbours stay neighbours when a cell is taken out. -/
theorem Adjacent.unlink {first second cell : P}
    (adjacent : links.Adjacent first second)
    (before : links.Adjacent (links.prev cell) cell)
    (behind : links.Adjacent cell (links.next cell))
    (first_ne : first ≠ cell) (second_ne : second ≠ cell) :
    (links.unlink cell).Adjacent first second := by
  apply adjacent.join_of_ne
  · rintro rfl
    exact second_ne (adjacent.1.symm.trans before.1)
  · rintro rfl
    exact first_ne (adjacent.2.symm.trans behind.2)

/-- Taking a member out of a ring leaves the ring of the others. -/
theorem Ring.unlink {front back : List P} {cell : P}
    (ring : links.Ring header (front ++ cell :: back)) :
    (links.unlink cell).Ring header (front ++ back) := by
  obtain ⟨first, second⟩ := ring.split
  have before : links.Adjacent (links.prev cell) cell := by
    rw [ring.prev_eq]
    exact adjacent_getLastD first
  have behind : links.Adjacent cell (links.next cell) := by
    rw [ring.next_eq]
    exact adjacent_headD second
  have distinct := ring.distinct
  rw [← List.cons_append, List.nodup_middle, List.nodup_cons] at distinct
  obtain ⟨absent, distinct⟩ := distinct
  rw [List.mem_append, not_or] at absent
  have keep : ∀ {cells : List P}, cell ∉ cells →
      List.IsChain links.Adjacent cells →
        List.IsChain (links.unlink cell).Adjacent cells := by
    intro cells absent chain
    refine chain.imp_of_mem_imp fun left right left_mem right_mem adjacent => ?_
    apply adjacent.unlink before behind
    · rintro rfl
      exact absent left_mem
    · rintro rfl
      exact absent right_mem
  rw [List.cons_append] at distinct
  refine ⟨?_, distinct⟩
  rw [List.append_assoc]
  refine isChain_joined (keep absent.1 ?_) (keep ?_ ?_) fun next is_next => ?_
  · rw [← List.cons_append] at first
    exact first.left_of_append
  · rw [List.mem_append, List.mem_singleton, not_or]
    exact ⟨absent.2, fun same => absent.1 (same ▸ List.mem_cons_self ..)⟩
  · exact second.tail
  · rw [head?_append_header, Option.mem_some_iff] at is_next
    rw [← is_next, ← ring.prev_eq, ← ring.next_eq]
    exact join_adjacent ..

/-- Neighbours stay neighbours when a new cell is let in somewhere else. -/
theorem Adjacent.insert {first second left cell right : P}
    (adjacent : links.Adjacent first second)
    (gap : links.Adjacent left right)
    (first_ne : first ≠ cell) (second_ne : second ≠ cell)
    (elsewhere : second ≠ right) :
    (links.insert left cell right).Adjacent first second := by
  have left_ne : first ≠ left := by
    rintro rfl
    exact elsewhere (adjacent.1.symm.trans gap.1)
  exact (adjacent.join_of_ne left_ne second_ne).join_of_ne first_ne elsewhere

/-- A new cell let in between two parts of a ring makes a ring. -/
theorem Ring.insert {front back : List P} {cell : P}
    (ring : links.Ring header (front ++ back))
    (fresh : cell ∉ header :: (front ++ back)) :
    (links.insert (front.getLastD header) cell (back.headD header)).Ring header
      (front ++ cell :: back) := by
  have gap : links.Adjacent (front.getLastD header) (back.headD header) := by
    have chain := ring.chain
    rw [List.append_assoc] at chain
    cases back with
    | nil => exact adjacent_getLastD chain
    | cons second back =>
        exact adjacent_getLastD (List.isChain_cons_split.mp chain).1
  have absent : ∀ known ∈ header :: (front ++ back), known ≠ cell :=
    fun known mem same => fresh (same ▸ mem)
  have known_front : ∀ known ∈ header :: front, known ≠ cell := fun known mem =>
    absent known (List.mem_append_left back mem)
  have known_back : ∀ known ∈ back ++ [header], known ≠ cell := by
    intro known mem
    rcases List.mem_append.mp mem with mem | same
    · exact absent known (List.mem_cons_of_mem _ (List.mem_append_right _ mem))
    · exact absent known (List.mem_singleton.mp same ▸ List.mem_cons_self ..)
  obtain ⟨not_front, not_behind⟩ := headD_not_mem ring.distinct
  have chain := ring.chain
  rw [List.append_assoc, ← List.cons_append] at chain
  have first : List.IsChain
      (links.insert (front.getLastD header) cell (back.headD header)).Adjacent
      (header :: front) :=
    chain.left_of_append.imp_of_mem_tail_imp
      fun left right left_mem right_mem adjacent => adjacent.insert gap
        (known_front left left_mem)
        (known_front right (List.mem_cons_of_mem _ right_mem))
        (fun same => not_front (same ▸ right_mem))
  have second : List.IsChain
      (links.insert (front.getLastD header) cell (back.headD header)).Adjacent
      (back ++ [header]) :=
    chain.right_of_append.imp_of_mem_tail_imp
      fun left right left_mem right_mem adjacent => adjacent.insert gap
        (known_back left left_mem)
        (known_back right (List.mem_of_mem_tail right_mem))
        (fun same => not_behind (same ▸ right_mem))
  have headD_mem : back.headD header ∈ back ++ [header] := by
    cases back <;> simp
  have enters :
      (links.insert (front.getLastD header) cell (back.headD header)).Adjacent
        (front.getLastD header) cell :=
    (join_adjacent links (front.getLastD header) cell).join_of_ne
      (known_front _ (List.getLastD_mem_cons ..)) (known_back _ headD_mem).symm
  constructor
  · have parts : front ++ cell :: back ++ [header] =
        front ++ [cell] ++ (back ++ [header]) := by simp
    rw [parts]
    apply isChain_joined
    · apply isChain_joined first (List.isChain_singleton cell)
      intro next is_next
      rw [List.head?_singleton, Option.mem_some_iff] at is_next
      exact is_next ▸ enters
    · exact second
    · intro next is_next
      rw [head?_append_header, Option.mem_some_iff] at is_next
      rw [List.getLastD_concat, ← is_next]
      exact join_adjacent ..
  · rw [← List.cons_append, List.nodup_middle]
    exact List.nodup_cons.mpr ⟨fresh, ring.distinct⟩

end Rings

end Links

end LinkedRing
