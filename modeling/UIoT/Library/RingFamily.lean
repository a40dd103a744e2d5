import UIoT.Library.LinkedRing

/-!
# Families of rings

Several rings of linked cells side by side, each with a header of its own.  No
cell is in two of them.  Letting a new cell in, taking one out and putting a new
one in the place of an old one change one ring and leave the others alone.
-/

namespace LinkedRing

universe u

variable {P : Type u}

/-- The members behind each header. -/
abbrev Family (P : Type u) := P → Option (List P)

namespace Family

/-- The cell is the header or a member of one of the rings. -/
def Linked (family : Family P) (cell : P) : Prop :=
  ∃ header members, family header = some members ∧ cell ∈ header :: members

/-- The cell is a member of one of the rings. -/
def Member (family : Family P) (cell : P) : Prop :=
  ∃ header members, family header = some members ∧ cell ∈ members

theorem Member.linked {family : Family P} {cell : P}
    (member : family.Member cell) : family.Linked cell := by
  obtain ⟨header, members, found, mem⟩ := member
  exact ⟨header, members, found, List.mem_cons_of_mem _ mem⟩

variable [DecidableEq P]

/-- The family without a cell among the members. -/
def erase (family : Family P) (cell : P) : Family P :=
  fun header => (family header).map fun members => members.erase cell

/-- The family with the members of a header changed. -/
def change (family : Family P) (header : P) (f : List P → List P) : Family P :=
  Function.update family header ((family header).map f)

/-- The family with a header of its own without members. -/
def start (family : Family P) (cell : P) : Family P :=
  Function.update family cell (some [])

/-- The family with a new cell in the place of an old one. -/
def replace (family : Family P) (old new : P) : Family P := fun header =>
  if header = new then family old
  else if header = old then none
  else (family header).map fun members =>
    members.map fun cell => if cell = old then new else cell

end Family

namespace Family

variable {family : Family P} {known : P}

/-- A cell is not linked by erasing another one. -/
theorem Linked.of_erase [DecidableEq P] {cell : P}
    (linked : (family.erase cell).Linked known) : family.Linked known := by
  obtain ⟨header, members, found, mem⟩ := linked
  obtain ⟨before, present, rfl⟩ := Option.map_eq_some_iff.mp found
  refine ⟨header, before, present, ?_⟩
  rcases List.mem_cons.mp mem with rfl | mem
  · exact List.mem_cons_self
  · exact List.mem_cons_of_mem _ (List.mem_of_mem_erase mem)

/-- Only the members of a changed ring are linked in addition. -/
theorem Linked.of_update [DecidableEq P] {header : P}
    {members : Option (List P)}
    (linked : Linked (Function.update family header members) known) :
    (∃ ms, members = some ms ∧ known ∈ header :: ms) ∨
      family.Linked known := by
  obtain ⟨foreign, others, found, mem⟩ := linked
  by_cases same : foreign = header
  · subst same
    rw [Function.update_self] at found
    exact .inl ⟨others, found, mem⟩
  · rw [Function.update_of_ne same] at found
    exact .inr ⟨foreign, others, found, mem⟩

/-- Only the new cell is linked in addition. -/
theorem Linked.of_replace [DecidableEq P] {old new : P}
    (linked : (family.replace old new).Linked known) :
    known = new ∨ family.Linked known := by
  obtain ⟨header, members, found, mem⟩ := linked
  unfold Family.replace at found
  by_cases is_new : header = new
  · rw [if_pos is_new] at found
    rcases List.mem_cons.mp mem with same | mem
    · exact .inl (same.trans is_new)
    · exact .inr ⟨old, members, found, List.mem_cons_of_mem _ mem⟩
  · rw [if_neg is_new] at found
    by_cases is_old : header = old
    · rw [if_pos is_old] at found
      cases found
    · rw [if_neg is_old, Option.map_eq_some_iff] at found
      obtain ⟨before, present, rfl⟩ := found
      rcases List.mem_cons.mp mem with same | mem
      · exact .inr ⟨header, before, present, same ▸ List.mem_cons_self⟩
      · obtain ⟨cell, inside, same⟩ := List.mem_map.mp mem
        by_cases is_cell : cell = old
        · rw [if_pos is_cell] at same
          exact .inl same.symm
        · rw [if_neg is_cell] at same
          exact .inr ⟨header, before, present,
            same ▸ List.mem_cons_of_mem _ inside⟩

end Family

/-! ## Finitely many headers -/

namespace Family

/-- All headers are among these cells. -/
def Within (family : Family P) (known : List P) : Prop :=
  ∀ header, (family header).isSome → header ∈ known

variable {family : Family P} {known : List P}

section Changes

variable [DecidableEq P]

theorem Within.erase (within : family.Within known) (cell : P) :
    (family.erase cell).Within known := by
  intro header found
  rw [Family.erase, Option.isSome_map] at found
  exact within header found

theorem Within.update (within : family.Within known) {cell : P}
    {members : Option (List P)} (inside : members.isSome → cell ∈ known) :
    Within (Function.update family cell members) known := by
  intro header found
  by_cases same : header = cell
  · subst same
    rw [Function.update_self] at found
    exact inside found
  · rw [Function.update_of_ne same] at found
    exact within header found

theorem Within.change (within : family.Within known) (cell : P)
    (f : List P → List P) : (family.change cell f).Within known :=
  within.update fun found => within cell (by rwa [Option.isSome_map] at found)

theorem Within.start (within : family.Within known) {cell : P}
    (inside : cell ∈ known) : (family.start cell).Within known :=
  within.update fun _ => inside

theorem Within.replace (within : family.Within known) {new : P}
    (inside : new ∈ known) (old : P) :
    (family.replace old new).Within known := by
  intro header found
  unfold Family.replace at found
  by_cases is_new : header = new
  · exact is_new ▸ inside
  · rw [if_neg is_new] at found
    by_cases is_old : header = old
    · rw [if_pos is_old] at found
      cases found
    · rw [if_neg is_old, Option.isSome_map] at found
      exact within header found

end Changes

/-- What is linked is linked to one of these headers. -/
theorem Within.linked_iff (within : family.Within known) {cell : P} :
    family.Linked cell ↔
      ∃ header ∈ known, cell ∈ (family header).elim [] (header :: ·) := by
  constructor
  · rintro ⟨header, members, found, mem⟩
    refine ⟨header, within header (by rw [found]; rfl), ?_⟩
    rwa [found]
  · rintro ⟨header, -, mem⟩
    cases found : family header with
    | none =>
        rw [found] at mem
        cases mem
    | some members =>
        rw [found] at mem
        exact ⟨header, members, found, mem⟩

theorem Within.member_iff (within : family.Within known) {cell : P} :
    family.Member cell ↔
      ∃ header ∈ known, cell ∈ (family header).getD [] := by
  constructor
  · rintro ⟨header, members, found, mem⟩
    refine ⟨header, within header (by rw [found]; rfl), ?_⟩
    rwa [found]
  · rintro ⟨header, -, mem⟩
    cases found : family header with
    | none =>
        rw [found] at mem
        cases mem
    | some members =>
        rw [found] at mem
        exact ⟨header, members, found, mem⟩

end Family

/-- The cell is in the ring of another header. -/
def Family.Elsewhere (family : Family P) (header cell : P) : Prop :=
  ∃ foreign others, foreign ≠ header ∧ family foreign = some others ∧
    cell ∈ foreign :: others

theorem Family.Elsewhere.linked {family : Family P} {header cell : P}
    (elsewhere : family.Elsewhere header cell) : family.Linked cell := by
  obtain ⟨foreign, others, -, found, mem⟩ := elsewhere
  exact ⟨foreign, others, found, mem⟩

/-- A new cell is no header. -/
theorem Family.eq_none_of_not_linked {family : Family P} {cell : P}
    (fresh : ¬family.Linked cell) : family cell = none := by
  cases found : family cell with
  | none => rfl
  | some members => exact absurd ⟨cell, members, found, List.mem_cons_self⟩ fresh

namespace Links

/-- The links make these rings, and no cell is in two of them. -/
structure Holds (links : Links P) (family : Family P) : Prop where
  ring : ∀ {header members}, family header = some members →
    links.Ring header members
  apart : ∀ {first second members others cell},
    family first = some members → family second = some others →
      cell ∈ first :: members → cell ∈ second :: others → first = second

/-- There may be no ring at all. -/
theorem holds_none (links : Links P) : links.Holds fun _ => none where
  ring := by
    intro header members found
    cases found
  apart := by
    intro first second members others cell found
    cases found

variable {links : Links P} {family : Family P}

/-- Rings are a matter of their own cells. -/
theorem Holds.congr (holds : links.Holds family) {other : Links P}
    (next : ∀ cell, family.Linked cell → other.next cell = links.next cell)
    (prev : ∀ cell, family.Linked cell → other.prev cell = links.prev cell) :
    other.Holds family :=
  ⟨fun found => (holds.ring found).congr
      (fun cell mem => next cell ⟨_, _, found, mem⟩)
      (fun cell mem => prev cell ⟨_, _, found, mem⟩),
    fun first second => holds.apart first second⟩

/-- The cells of a ring are nowhere else. -/
theorem Holds.not_elsewhere (holds : links.Holds family) {header cell : P}
    {members : List P} (found : family header = some members)
    (mem : cell ∈ header :: members) : ¬family.Elsewhere header cell := by
  rintro ⟨foreign, others, different, present, other⟩
  exact different (holds.apart present found other mem)

variable [DecidableEq P]

/-- One ring changes with the others untouched. -/
theorem Holds.update (holds : links.Holds family) {other : Links P}
    {header : P} {members : List P} (ring : other.Ring header members)
    (own : ∀ cell ∈ header :: members, ¬family.Elsewhere header cell)
    (next : ∀ cell, family.Elsewhere header cell →
      other.next cell = links.next cell)
    (prev : ∀ cell, family.Elsewhere header cell →
      other.prev cell = links.prev cell) :
    other.Holds (Function.update family header (some members)) := by
  constructor
  · intro foreign others found
    by_cases same : foreign = header
    · subst same
      rw [Function.update_self] at found
      rw [← Option.some.inj found]
      exact ring
    · rw [Function.update_of_ne same] at found
      exact (holds.ring found).congr
        (fun cell mem => next cell ⟨foreign, others, same, found, mem⟩)
        (fun cell mem => prev cell ⟨foreign, others, same, found, mem⟩)
  · intro first second ms ms' cell left right mem mem'
    by_cases firstSame : first = header
    · subst firstSame
      by_contra different
      rw [Function.update_self] at left
      rw [Function.update_of_ne (Ne.symm different)] at right
      rw [← Option.some.inj left] at mem
      exact own cell mem ⟨second, ms', Ne.symm different, right, mem'⟩
    · rw [Function.update_of_ne firstSame] at left
      by_cases secondSame : second = header
      · subst secondSame
        rw [Function.update_self] at right
        rw [← Option.some.inj right] at mem'
        exact absurd ⟨first, ms, firstSame, left, mem⟩ (own cell mem')
      · rw [Function.update_of_ne secondSame] at right
        exact holds.apart left right mem mem'

/-! ## Letting in and taking out -/

section Neighbours

omit [DecidableEq P]

theorem getLastD_mem (front : List P) (header : P) (back : List P) :
    front.getLastD header ∈ header :: (front ++ back) := by
  rw [← List.cons_append]
  exact List.mem_append_left _ List.getLastD_mem_cons

theorem headD_mem (front : List P) (header : P) (back : List P) :
    back.headD header ∈ header :: (front ++ back) := by
  cases back with
  | nil => exact List.mem_cons_self
  | cons second back => simp

/-- What follows a cell of a ring is in the ring. -/
theorem Ring.next_mem {header cell : P} {members : List P}
    (ring : links.Ring header members) (mem : cell ∈ header :: members) :
    links.next cell ∈ header :: members := by
  rcases List.mem_cons.mp mem with rfl | mem
  · rw [ring.next_header]
    exact headD_mem [] cell members
  · obtain ⟨front, back, rfl⟩ := List.append_of_mem mem
    rw [ring.next_eq]
    have inside := headD_mem (front ++ [cell]) header back
    rw [List.append_assoc] at inside
    exact inside

/-- What comes before a cell of a ring is in the ring. -/
theorem Ring.prev_mem {header cell : P} {members : List P}
    (ring : links.Ring header members) (mem : cell ∈ header :: members) :
    links.prev cell ∈ header :: members := by
  rcases List.mem_cons.mp mem with rfl | mem
  · rw [ring.prev_header]
    exact List.getLastD_mem_cons
  · obtain ⟨front, back, rfl⟩ := List.append_of_mem mem
    rw [ring.prev_eq]
    exact getLastD_mem front header _

/-- What follows a cell that is linked is linked. -/
theorem Holds.next_linked (holds : links.Holds family) {cell : P}
    (linked : family.Linked cell) : family.Linked (links.next cell) := by
  obtain ⟨header, members, found, mem⟩ := linked
  exact ⟨header, members, found, (holds.ring found).next_mem mem⟩

/-- What comes before a cell that is linked is linked. -/
theorem Holds.prev_linked (holds : links.Holds family) {cell : P}
    (linked : family.Linked cell) : family.Linked (links.prev cell) := by
  obtain ⟨header, members, found, mem⟩ := linked
  exact ⟨header, members, found, (holds.ring found).prev_mem mem⟩

end Neighbours

theorem insert_next_of_ne {left cell right known : P}
    (not_cell : known ≠ cell) (not_left : known ≠ left) :
    (links.insert left cell right).next known = links.next known :=
  (Function.update_of_ne not_cell ..).trans (Function.update_of_ne not_left ..)

theorem insert_prev_of_ne {left cell right known : P}
    (not_right : known ≠ right) (not_cell : known ≠ cell) :
    (links.insert left cell right).prev known = links.prev known :=
  (Function.update_of_ne not_right ..).trans (Function.update_of_ne not_cell ..)

/-- A new cell let into one of the rings. -/
theorem Holds.insert (holds : links.Holds family) {header cell : P}
    {front back : List P} (found : family header = some (front ++ back))
    (fresh : ¬family.Linked cell) :
    (links.insert (front.getLastD header) cell (back.headD header)).Holds
      (Function.update family header (some (front ++ cell :: back))) := by
  have left := holds.not_elsewhere found (getLastD_mem front header back)
  have right := holds.not_elsewhere found (headD_mem front header back)
  have new : ¬family.Elsewhere header cell := fun elsewhere =>
    fresh elsewhere.linked
  refine holds.update ((holds.ring found).insert
    fun mem => fresh ⟨header, _, found, mem⟩) (fun known mem => ?_)
    (fun known elsewhere => ?_) (fun known elsewhere => ?_)
  · rw [← List.cons_append, List.mem_append] at mem
    rcases mem with mem | mem
    · exact holds.not_elsewhere found (List.mem_append_left back mem)
    · rcases List.mem_cons.mp mem with rfl | mem
      · exact new
      · exact holds.not_elsewhere found
          (List.mem_cons_of_mem _ (List.mem_append_right front mem))
  · apply insert_next_of_ne
    · rintro rfl
      exact new elsewhere
    · rintro rfl
      exact left elsewhere
  · apply insert_prev_of_ne
    · rintro rfl
      exact right elsewhere
    · rintro rfl
      exact new elsewhere

/-- Where a cell is erased from all rings, it is from its own. -/
theorem Holds.erase_eq (holds : links.Holds family) {header cell : P}
    {front back : List P}
    (found : family header = some (front ++ cell :: back)) :
    family.erase cell =
      Function.update family header (some (front ++ back)) := by
  funext foreign
  unfold Family.erase
  by_cases same : foreign = header
  · subst same
    have distinct := (holds.ring found).distinct
    rw [List.nodup_cons, List.nodup_middle, List.nodup_cons] at distinct
    rw [Function.update_self, found, Option.map_some]
    rw [List.erase_append_right _ fun mem =>
      distinct.2.1 (List.mem_append_left _ mem), List.erase_cons_head]
  · rw [Function.update_of_ne same]
    cases present : family foreign with
    | none => rfl
    | some others =>
        rw [Option.map_some, List.erase_of_not_mem fun mem => ?_]
        exact same (holds.apart present found (List.mem_cons_of_mem _ mem)
          (by simp))

/-- A member taken out of its ring. -/
theorem Holds.unlink (holds : links.Holds family) {cell : P}
    (member : family.Member cell) :
    (links.unlink cell).Holds (family.erase cell) ∧
      ¬(family.erase cell).Linked cell := by
  obtain ⟨header, members, found, mem⟩ := member
  obtain ⟨front, back, rfl⟩ := List.append_of_mem mem
  have ring := holds.ring found
  have own {known : P} (inside : known ∈ header :: (front ++ cell :: back)) :=
    holds.not_elsewhere found inside
  have inside : cell ∈ header :: (front ++ cell :: back) := by simp
  have before := own (ring.prev_mem inside)
  have behind := own (ring.next_mem inside)
  rw [holds.erase_eq found]
  constructor
  · refine holds.update ring.unlink (fun known mem => own ?_)
      (fun known elsewhere => ?_) (fun known elsewhere => ?_)
    · simp only [List.mem_cons, List.mem_append] at mem ⊢
      tauto
    · apply Function.update_of_ne
      rintro rfl
      exact before elsewhere
    · apply Function.update_of_ne
      rintro rfl
      exact behind elsewhere
  · rintro ⟨foreign, others, present, other⟩
    by_cases same : foreign = header
    · subst same
      have distinct := ring.distinct
      rw [← List.cons_append, List.nodup_middle, List.nodup_cons] at distinct
      rw [Function.update_self] at present
      rw [← Option.some.inj present, ← List.cons_append] at other
      exact distinct.1 other
    · rw [Function.update_of_ne same] at present
      exact own inside
        ⟨foreign, others, same, present, other⟩

/-- A header of its own.  What it was the header of is forgotten. -/
theorem Holds.start (holds : links.Holds family) {cell : P}
    (outside : ¬family.Member cell) :
    (links.join cell cell).Holds (family.start cell) := by
  have new : ¬family.Elsewhere cell cell := by
    rintro ⟨foreign, others, different, found, mem⟩
    rcases List.mem_cons.mp mem with same | mem
    · exact different same.symm
    · exact outside ⟨foreign, others, found, mem⟩
  refine holds.update (ring_nil (join_adjacent ..).1 (join_adjacent ..).2)
    (fun known mem => ?_) (fun known elsewhere => ?_)
    (fun known elsewhere => ?_)
  · rw [List.mem_singleton.mp mem]
    exact new
  · apply Function.update_of_ne
    rintro rfl
    exact new elsewhere
  · apply Function.update_of_ne
    rintro rfl
    exact new elsewhere

/-! ## Putting one cell in the place of another -/

omit [DecidableEq P] in
/-- Any member may be taken for the header. -/
theorem Ring.rotate {header cell : P} {front back : List P}
    (ring : links.Ring header (front ++ cell :: back)) :
    links.Ring cell (back ++ header :: front) := by
  obtain ⟨first, second⟩ := ring.split
  constructor
  · rw [List.append_assoc, List.cons_append]
    exact List.isChain_cons_split.mpr ⟨second, first⟩
  · have distinct := ring.distinct
    rw [← List.cons_append] at distinct
    have turned := List.perm_append_comm.nodup_iff.mp distinct
    exact turned

/-- Put a new cell in the place of an old one: behind what comes before it, and
in front of what comes behind it. -/
def replace (links : Links P) (old new : P) : Links P :=
  let behind := links.join new (links.next old)
  behind.join (behind.prev old) new

theorem replace_next_of_ne {old new known : P} (not_new : known ≠ new)
    (not_before : known ≠ links.prev old) :
    (links.replace old new).next known = links.next known := by
  refine (Function.update_of_ne ?_ ..).trans (Function.update_of_ne not_new ..)
  by_cases alone : old = links.next old
  · have before : (links.join new (links.next old)).prev old = new := by
      rw [← alone]
      exact Function.update_self ..
    rw [before]
    exact not_new
  · have before : (links.join new (links.next old)).prev old =
        links.prev old := Function.update_of_ne alone ..
    rw [before]
    exact not_before

theorem replace_prev_of_ne {old new known : P} (not_new : known ≠ new)
    (not_behind : known ≠ links.next old) :
    (links.replace old new).prev known = links.prev known :=
  (Function.update_of_ne not_new ..).trans
    (Function.update_of_ne not_behind ..)

/-- A new header in the place of an old one. -/
theorem Ring.replace {old new : P} {members : List P}
    (ring : links.Ring old members) (fresh : new ∉ old :: members) :
    (links.replace old new).Ring new members := by
  cases members with
  | nil =>
      have alone : links.next old = old := ring.next_header
      have same : links.replace old new = (links.join new old).join new new := by
        unfold Links.replace
        rw [alone]
        exact congrArg (fun before => (links.join new old).join before new)
          (Function.update_self ..)
      rw [same]
      exact ring_nil (join_adjacent ..).1 (join_adjacent ..).2
  | cons first rest =>
      have next_old : links.next old = first := ring.next_header
      have prev_old : links.prev old = rest.getLastD first :=
        ring.prev_header.trans List.getLastD_cons
      obtain ⟨absent, distinct⟩ := List.nodup_cons.mp ring.distinct
      have old_ne : old ≠ first := fun same =>
        absent (same ▸ List.mem_cons_self)
      have last_mem : rest.getLastD first ∈ first :: rest :=
        List.getLastD_mem_cons
      have new_ne : ∀ cell ∈ first :: rest, cell ≠ new := fun cell mem same =>
        fresh (same ▸ List.mem_cons_of_mem _ mem)
      have last_ne : rest.getLastD first ≠ new := new_ne _ last_mem
      have same : links.replace old new =
          (links.join new first).join (rest.getLastD first) new := by
        unfold Links.replace
        rw [next_old, ← prev_old]
        exact congrArg (fun before => (links.join new first).join before new)
          (Function.update_of_ne old_ne ..)
      have kept : List.IsChain (links.replace old new).Adjacent
          (first :: rest) := by
        have chain := ring.chain.tail
        rw [List.tail_cons] at chain
        refine chain.left_of_append.imp_of_mem_imp
          fun left right left_mem right_mem adjacent => ?_
        have left_ne : left ≠ links.prev old := by
          rintro rfl
          have turned : links.next (links.prev old) = old := by
            have last := adjacent_getLastD ring.chain
            rw [ring.prev_header]
            exact last.1
          exact absent (turned ▸ adjacent.1 ▸ right_mem)
        have right_ne : right ≠ links.next old := by
          rintro rfl
          have back : links.prev (links.next old) = old := by
            rw [next_old]
            exact (adjacent_headD ring.chain).2
          exact absent (back ▸ adjacent.2 ▸ left_mem)
        exact ⟨(replace_next_of_ne (new_ne left left_mem) left_ne).trans
            adjacent.1,
          (replace_prev_of_ne (new_ne right right_mem) right_ne).trans
            adjacent.2⟩
      have enters : (links.replace old new).Adjacent new first := by
        rw [same]
        exact (join_adjacent links new first).join_of_ne (Ne.symm last_ne)
          (new_ne first List.mem_cons_self)
      have leaves : (links.replace old new).Adjacent (rest.getLastD first)
          new := by
        rw [same]
        exact join_adjacent ..
      refine ⟨?_, List.nodup_cons.mpr
        ⟨fun mem => fresh (List.mem_cons_of_mem _ mem), distinct⟩⟩
      refine isChain_joined (List.isChain_cons_cons.mpr ⟨enters, kept⟩)
        (List.isChain_singleton new) fun second is_second => ?_
      rw [List.head?_singleton, Option.mem_some_iff] at is_second
      rw [← is_second, List.getLastD_cons]
      exact leaves

/-- One of the rings may be forgotten. -/
theorem Holds.forget (holds : links.Holds family) (header : P) :
    links.Holds (Function.update family header none) := by
  have present {foreign : P} {others : List P}
      (found : Function.update family header none foreign = some others) :
      foreign ≠ header ∧ family foreign = some others := by
    by_cases same : foreign = header
    · subst same
      rw [Function.update_self] at found
      cases found
    · rw [Function.update_of_ne same] at found
      exact ⟨same, found⟩
  exact ⟨fun found => holds.ring (present found).2,
    fun first second => holds.apart (present first).2 (present second).2⟩

/-- A cell that is not among the members is not renamed there. -/
theorem map_replace_of_not_mem {old new : P} {members : List P}
    (absent : old ∉ members) :
    members.map (fun cell => if cell = old then new else cell) = members := by
  conv_rhs => rw [← List.map_id members]
  refine List.map_congr_left fun cell mem => if_neg ?_
  rintro rfl
  exact absent mem

/-- The rings that the old cell is not in stay as they are. -/
theorem Holds.replace_foreign (holds : links.Holds family)
    {header old new foreign : P} {members : List P}
    (found : family header = some members) (mem : old ∈ header :: members)
    (different : foreign ≠ header) (not_new : foreign ≠ new) :
    family.replace old new foreign = family foreign := by
  have absent {others : List P} (present : family foreign = some others)
      (inside : old ∈ foreign :: others) : False :=
    different (holds.apart present found inside mem)
  unfold Family.replace
  rw [if_neg not_new]
  cases present : family foreign with
  | none => exact ite_self _
  | some others =>
      rw [if_neg, Option.map_some, map_replace_of_not_mem]
      · exact fun inside => absent present (List.mem_cons_of_mem _ inside)
      · rintro rfl
        exact absent present List.mem_cons_self

/-- A new header in the place of an old one. -/
theorem Holds.replace_header (holds : links.Holds family) {old new : P}
    {members : List P} (found : family old = some members)
    (fresh : ¬family.Linked new) :
    (links.replace old new).Holds (family.replace old new) := by
  have renamed : family.replace old new = Function.update
      (Function.update family old none) new (some members) := by
    funext foreign
    by_cases not_new : foreign = new
    · rw [not_new, Function.update_self, Family.replace, if_pos rfl, found]
    · rw [Function.update_of_ne not_new]
      by_cases not_old : foreign = old
      · rw [not_old, Function.update_self, Family.replace,
          if_neg (not_old ▸ not_new), if_pos rfl]
      · rw [Function.update_of_ne not_old, holds.replace_foreign found
          List.mem_cons_self not_old not_new]
  have elsewhere {cell : P}
      (other : Family.Elsewhere (Function.update family old none) new cell) :
      family.Elsewhere old cell := by
    obtain ⟨foreign, others, -, present, inside⟩ := other
    by_cases same : foreign = old
    · rw [same, Function.update_self] at present
      cases present
    · rw [Function.update_of_ne same] at present
      exact ⟨foreign, others, same, present, inside⟩
  have ring := holds.ring found
  have own {cell : P} (inside : cell ∈ old :: members) :=
    holds.not_elsewhere found inside
  rw [renamed]
  refine (holds.forget old).update (ring.replace fun mem =>
    fresh ⟨old, members, found, mem⟩) (fun cell mem other => ?_)
    (fun cell other => ?_) (fun cell other => ?_)
  · rcases List.mem_cons.mp mem with rfl | mem
    · exact fresh (elsewhere other).linked
    · exact own (List.mem_cons_of_mem _ mem) (elsewhere other)
  · apply replace_next_of_ne
    · rintro rfl
      exact fresh (elsewhere other).linked
    · rintro rfl
      exact own (ring.prev_mem List.mem_cons_self) (elsewhere other)
  · apply replace_prev_of_ne
    · rintro rfl
      exact fresh (elsewhere other).linked
    · rintro rfl
      exact own (ring.next_mem List.mem_cons_self) (elsewhere other)

/-- A new member in the place of an old one. -/
theorem Holds.replace_member (holds : links.Holds family) {header old new : P}
    {front back : List P}
    (found : family header = some (front ++ old :: back))
    (fresh : ¬family.Linked new) :
    (links.replace old new).Holds (family.replace old new) := by
  have ring := holds.ring found
  have inside : old ∈ header :: (front ++ old :: back) := by simp
  have own {cell : P} (mem : cell ∈ header :: (front ++ old :: back)) :=
    holds.not_elsewhere found mem
  have new_ne : new ∉ header :: (front ++ old :: back) := fun mem =>
    fresh ⟨header, _, found, mem⟩
  have distinct := ring.distinct
  rw [← List.cons_append, List.nodup_middle, List.nodup_cons,
    List.cons_append, List.mem_cons, List.mem_append, not_or, not_or]
    at distinct
  obtain ⟨⟨not_header, not_front, not_back⟩, -⟩ := distinct
  have renamed : family.replace old new =
      Function.update family header (some (front ++ new :: back)) := by
    funext foreign
    by_cases same : foreign = header
    · rw [same, Function.update_self, Family.replace, if_neg, if_neg, found,
        Option.map_some, List.map_append, List.map_cons, if_pos rfl,
        map_replace_of_not_mem not_front, map_replace_of_not_mem not_back]
      · exact fun same => not_header same.symm
      · exact fun same => new_ne (same ▸ List.mem_cons_self)
    · rw [Function.update_of_ne same]
      by_cases is_new : foreign = new
      · have old_none : family old = none := by
          cases present : family old with
          | none => rfl
          | some others =>
              have same := holds.apart present found List.mem_cons_self inside
              exact absurd same not_header
        rw [is_new, Family.eq_none_of_not_linked fresh, Family.replace,
          if_pos rfl, old_none]
      · exact holds.replace_foreign found inside same is_new
  have turned := ring.rotate
  have again : (links.replace old new).Ring header (front ++ new :: back) := by
    refine (turned.replace fun mem => new_ne ?_).rotate
    simp only [List.mem_cons, List.mem_append] at mem ⊢
    tauto
  rw [renamed]
  refine holds.update again (fun cell mem => ?_) (fun cell other => ?_)
    (fun cell other => ?_)
  · by_cases is_new : cell = new
    · rw [is_new]
      exact fun other => fresh other.linked
    · refine own ?_
      simp only [List.mem_cons, List.mem_append] at mem ⊢
      tauto
  · apply replace_next_of_ne
    · rintro rfl
      exact fresh other.linked
    · rintro rfl
      exact own (ring.prev_mem inside) other
  · apply replace_prev_of_ne
    · rintro rfl
      exact fresh other.linked
    · rintro rfl
      exact own (ring.next_mem inside) other

/-- A new cell in the place of an old one, be it a header or a member. -/
theorem Holds.replace (holds : links.Holds family) {old new : P}
    (linked : family.Linked old) (fresh : ¬family.Linked new) :
    (links.replace old new).Holds (family.replace old new) := by
  obtain ⟨header, members, found, mem⟩ := linked
  rcases List.mem_cons.mp mem with rfl | mem
  · exact holds.replace_header found fresh
  · obtain ⟨front, back, rfl⟩ := List.append_of_mem mem
    exact holds.replace_member found fresh

/-- The old cell is in no ring any more. -/
theorem Holds.replace_not_linked (holds : links.Holds family) {old new : P}
    (linked : family.Linked old) (fresh : ¬family.Linked new) :
    ¬(family.replace old new).Linked old := by
  have different : new ≠ old := by
    rintro rfl
    exact fresh linked
  rintro ⟨header, members, found, mem⟩
  unfold Family.replace at found
  by_cases is_new : header = new
  · rw [if_pos is_new] at found
    rcases List.mem_cons.mp mem with same | mem
    · exact different (is_new.symm.trans same.symm)
    · exact (List.nodup_cons.mp (holds.ring found).distinct).1 mem
  · rw [if_neg is_new] at found
    by_cases is_old : header = old
    · rw [if_pos is_old] at found
      cases found
    · rw [if_neg is_old, Option.map_eq_some_iff] at found
      obtain ⟨before, -, rfl⟩ := found
      rcases List.mem_cons.mp mem with same | mem
      · exact is_old same.symm
      · obtain ⟨cell, -, same⟩ := List.mem_map.mp mem
        by_cases is_cell : cell = old
        · rw [if_pos is_cell] at same
          exact different same
        · rw [if_neg is_cell] at same
          exact is_cell same

end Links

end LinkedRing
