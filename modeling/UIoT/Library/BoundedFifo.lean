import Mathlib.Data.List.Basic
import Mathlib.Data.List.TakeWhile

/-!
# Bounded queues and circular arrays

A queue of at most `capacity` items, which accepts the longest prefix of what is
pushed that fits and gives back its items in order.  What was taken out followed
by what is in it is what it accepted.

A circular array of cells keeps the items of such a queue: its items stand
behind the cell where reading goes on, and writing goes on behind the last of
them.  One cell stays free, so that a full array is not taken for an empty one.
-/

namespace BoundedFifo

universe u

variable {α : Type u}

/-! ## Queues -/

/-- A call of a queue. -/
inductive Call (α : Type u)
  | push (items : List α)
  | pop (count : Nat)
  | flush

/-- The items a queue accepts of what is pushed. -/
def accepts (capacity : Nat) (stored : List α) (items : List α) : List α :=
  items.take (capacity - stored.length)

/-- A queue with what it accepted and gave back since it was flushed. -/
structure History (α : Type u) where
  accepted : List α
  popped : List α
  stored : List α

/-- A queue that was not used yet. -/
def History.empty : History α := ⟨[], [], []⟩

/-- The effect of a call. -/
def History.step (capacity : Nat) (history : History α) :
    Call α → History α
  | .push items =>
      { history with
        accepted := history.accepted ++ accepts capacity history.stored items
        stored := history.stored ++ accepts capacity history.stored items }
  | .pop count =>
      { history with
        popped := history.popped ++ history.stored.take count
        stored := history.stored.drop count }
  | .flush => .empty

/-- What was taken out and what is in the queue is what it accepted, and it
holds no more than it may. -/
structure History.Kept (capacity : Nat) (history : History α) : Prop where
  conserved : history.popped ++ history.stored = history.accepted
  bounded : history.stored.length ≤ capacity

theorem History.empty_kept (capacity : Nat) :
    (History.empty : History α).Kept capacity :=
  ⟨rfl, Nat.zero_le _⟩

/-- Every call keeps the queue in order. -/
theorem History.Kept.step {capacity : Nat} {history : History α}
    (kept : history.Kept capacity) (call : Call α) :
    (history.step capacity call).Kept capacity := by
  have bounded := kept.bounded
  cases call with
  | push items =>
      constructor
      · simp only [History.step]
        rw [← List.append_assoc, kept.conserved]
      · simp only [History.step, accepts, List.length_append,
          List.length_take]
        omega
  | pop count =>
      constructor
      · simp only [History.step]
        rw [List.append_assoc, List.take_append_drop, kept.conserved]
      · simp only [History.step, List.length_drop]
        omega
  | flush => exact History.empty_kept capacity

/-! ## Circular arrays -/

/-- The cell behind another one. -/
def next (size index : Nat) : Nat := (index + 1) % size

/-- How many cells lie behind one up to another. -/
def distance (size read write : Nat) : Nat := (write + size - read) % size

/-- The items behind the cell where reading goes on. -/
def items (cells : Nat → α) (size read write : Nat) : List α :=
  (List.range (distance size read write)).map fun index =>
    cells ((read + 1 + index) % size)

@[simp] theorem length_items (cells : Nat → α) (size read write : Nat) :
    (items cells size read write).length = distance size read write := by
  simp [items]

section Arrays

variable {cells : Nat → α} {size read write : Nat}

theorem next_lt (positive : 0 < size) : next size read < size :=
  Nat.mod_lt _ positive

theorem distance_lt (positive : 0 < size) : distance size read write < size :=
  Nat.mod_lt _ positive

/-- Going on past the last cell leads to the first one. -/
theorem wrap {offset : Nat} (inside : read + offset < 2 * size) :
    (read + offset) % size =
      if read + offset < size then read + offset
      else read + offset - size := by
  split
  · rename_i below
    exact Nat.mod_eq_of_lt below
  · rename_i past
    rw [Nat.mod_eq_sub_mod (Nat.le_of_not_lt past)]
    exact Nat.mod_eq_of_lt (by omega)

theorem distance_eq (read_lt : read < size) (write_lt : write < size) :
    distance size read write =
      if read ≤ write then write - read else write + size - read := by
  unfold distance
  split
  · rename_i before
    rw [show write + size - read = write - read + size from by omega,
      Nat.add_mod_right]
    exact Nat.mod_eq_of_lt (by omega)
  · exact Nat.mod_eq_of_lt (by omega)

/-- The cell where writing goes on is as far behind as there are items. -/
theorem add_distance (read_lt : read < size) (write_lt : write < size) :
    (read + distance size read write) % size = write := by
  have below : distance size read write < size := distance_lt (by omega)
  rw [wrap (by omega), distance_eq read_lt write_lt]
  split <;> split <;> omega

/-- A number of cells below the size is the distance they make. -/
theorem distance_add {count : Nat} (read_lt : read < size)
    (small : count < size) :
    distance size read ((read + count) % size) = count := by
  rw [distance_eq read_lt (Nat.mod_lt _ (by omega)), wrap (by omega)]
  split <;> split <;> omega

/-- The array is empty where reading and writing go on at the same cell. -/
theorem distance_eq_zero (read_lt : read < size) (write_lt : write < size) :
    distance size read write = 0 ↔ write = read := by
  constructor
  · intro none
    have reached := add_distance read_lt write_lt
    rw [none, Nat.add_zero, Nat.mod_eq_of_lt read_lt] at reached
    exact reached.symm
  · rintro rfl
    unfold distance
    rw [show write + size - write = size from by omega, Nat.mod_self]

/-- The array is full where writing would go on at the cell of reading. -/
theorem next_eq_read (read_lt : read < size) (write_lt : write < size) :
    next size write = read ↔ distance size read write = size - 1 := by
  have reached := add_distance read_lt write_lt
  constructor
  · intro meets
    have below : distance size read write < size := distance_lt (by omega)
    by_contra room
    have further : distance size read (next size write) =
        distance size read write + 1 := by
      unfold next
      conv_lhs => rw [← reached]
      rw [Nat.mod_add_mod, Nat.add_assoc]
      exact distance_add read_lt (by omega)
    rw [meets, (distance_eq_zero read_lt read_lt).mpr rfl] at further
    omega
  · intro full
    rw [full] at reached
    unfold next
    rw [← reached, Nat.mod_add_mod,
      show read + (size - 1) + 1 = read + size from by omega,
      Nat.add_mod_right, Nat.mod_eq_of_lt read_lt]

/-- Cells at different distances are different. -/
theorem cell_ne {first second : Nat} (read_lt : read < size)
    (small : first < second) (below : second < size) :
    (read + first) % size ≠ (read + second) % size := by
  rw [wrap (by omega), wrap (by omega)]
  split <;> split <;> omega

/-- An item written behind the others is the last one. -/
theorem items_write (read_lt : read < size)
    (write_lt : write < size) (room : next size write ≠ read) (item : α) :
    items (Function.update cells (next size write) item) size read
        (next size write) =
      items cells size read write ++ [item] := by
  have reached := add_distance read_lt write_lt
  have below : distance size read write + 1 < size := by
    have bounded : distance size read write < size := distance_lt (by omega)
    have notFull := mt (next_eq_read read_lt write_lt).mpr room
    omega
  have place : next size write =
      (read + (distance size read write + 1)) % size := by
    unfold next
    conv_lhs => rw [← reached]
    rw [Nat.mod_add_mod, Nat.add_assoc]
  have further : distance size read (next size write) =
      distance size read write + 1 := by
    rw [place]
    exact distance_add read_lt below
  unfold items
  rw [further, List.range_succ, List.map_append, List.map_singleton]
  congr 1
  · apply List.map_congr_left
    intro index inside
    have inside : index < distance size read write := List.mem_range.mp inside
    apply Function.update_of_ne
    rw [place, Nat.add_assoc, Nat.add_comm 1]
    exact cell_ne read_lt (by omega) below
  · rw [place, Nat.add_assoc, Nat.add_comm 1, Function.update_self]

/-- The first item is the one behind the cell of reading, and the others are
behind that one. -/
theorem items_read (read_lt : read < size) (write_lt : write < size)
    (nonempty : write ≠ read) :
    items cells size read write =
      cells (next size read) ::
        items cells size (next size read) write := by
  have positive : distance size read write ≠ 0 :=
    mt (distance_eq_zero read_lt write_lt).mp nonempty
  have below : distance size read write < size := distance_lt (by omega)
  obtain ⟨count, counted⟩ := Nat.exists_eq_succ_of_ne_zero positive
  have reached := add_distance read_lt write_lt
  have shorter : distance size (next size read) write = count := by
    rw [← reached, counted]
    have place : (read + (count + 1)) % size =
        (next size read + count) % size := by
      unfold next
      rw [Nat.mod_add_mod]
      congr 1
      omega
    rw [place]
    exact distance_add (next_lt (by omega)) (by omega)
  unfold items
  rw [shorter, counted, List.range_succ_eq_map, List.map_cons, List.map_map]
  congr 1
  apply List.map_congr_left
  intro index _
  have place : (next size read + 1 + index) % size =
      (read + 1 + (index + 1)) % size := by
    unfold next
    rw [Nat.add_assoc, Nat.mod_add_mod]
    congr 1
    omega
  rw [place]
  rfl

end Arrays

end BoundedFifo
