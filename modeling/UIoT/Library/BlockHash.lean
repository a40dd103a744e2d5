import Mathlib.Data.List.Basic

/-!
# Hashing by blocks

A hash of the Merkle-Damgård kind folds a compression function over the whole
blocks of its data.  Data that come in pieces are hashed with the state after
the whole blocks seen so far and the part of a block left over: both depend on
the data as a whole and not on the pieces.
-/

namespace UIoT
namespace BlockHash

variable {σ α : Type} (compress : σ → List α → σ) (size : Nat)

/-- The state after the first blocks of the data. -/
def foldBlocks : Nat → σ → List α → σ
  | 0, state, _ => state
  | count + 1, state, data =>
      foldBlocks count (compress state (data.take size)) (data.drop size)

/-- The state after every whole block of the data. -/
def absorbed (state : σ) (data : List α) : σ :=
  foldBlocks compress size (data.length / size) state data

/-- The part of a block behind the whole ones. -/
def leftOver (data : List α) : List α :=
  data.drop (data.length / size * size)

@[simp] theorem foldBlocks_zero (state : σ) (data : List α) :
    foldBlocks compress size 0 state data = state := rfl

theorem foldBlocks_succ (count : Nat) (state : σ) (data : List α) :
    foldBlocks compress size (count + 1) state data =
      foldBlocks compress size count (compress state (data.take size))
        (data.drop size) := rfl

/-- Data behind the blocks that are folded play no part. -/
theorem foldBlocks_append (count : Nat) (state : σ) (data behind : List α)
    (enough : count * size ≤ data.length) :
    foldBlocks compress size count state (data ++ behind) =
      foldBlocks compress size count state data := by
  induction count generalizing state data with
  | zero => rfl
  | succ count inductionHypothesis =>
      have first : size ≤ data.length := by
        rw [Nat.succ_mul] at enough
        omega
      have rest : count * size ≤ (data.drop size).length := by
        rw [Nat.succ_mul] at enough
        rw [List.length_drop]
        omega
      rw [foldBlocks_succ, foldBlocks_succ, List.take_append_of_le_length first,
        List.drop_append_of_le_length first]
      exact inductionHypothesis _ _ rest

/-- Blocks can be folded in two goes. -/
theorem foldBlocks_add (first second : Nat) (state : σ) (data : List α) :
    foldBlocks compress size (first + second) state data =
      foldBlocks compress size second
        (foldBlocks compress size first state data)
        (data.drop (first * size)) := by
  induction first generalizing state data with
  | zero => simp
  | succ first inductionHypothesis =>
      rw [Nat.succ_add, foldBlocks_succ, inductionHypothesis, foldBlocks_succ,
        List.drop_drop, Nat.succ_mul, Nat.add_comm size]

variable {size}

/-- Less than a block is left over. -/
theorem length_leftOver (data : List α) :
    (leftOver size data).length = data.length % size := by
  have whole := Nat.div_add_mod data.length size
  rw [leftOver, List.length_drop, Nat.mul_comm]
  omega

/-- A piece that does not fill the block changes no state. -/
theorem absorbed_of_short (state : σ) {data : List α}
    (short : data.length < size) :
    absorbed compress size state data = state := by
  rw [absorbed, Nat.div_eq_of_lt short, foldBlocks_zero]

theorem leftOver_of_short {data : List α} (short : data.length < size) :
    leftOver size data = data := by
  rw [leftOver, Nat.div_eq_of_lt short, Nat.zero_mul, List.drop_zero]

section Pieces

variable (positive : 0 < size)
include positive

/-- The blocks of data with a further piece are those of the data and those of
what they leave over with the piece. -/
theorem length_append_div (data piece : List α) :
    (data ++ piece).length / size =
      data.length / size + (leftOver size data ++ piece).length / size := by
  have whole := Nat.div_add_mod data.length size
  have split : data.length + piece.length =
      data.length % size + piece.length + size * (data.length / size) := by
    omega
  rw [List.length_append, List.length_append, length_leftOver, split,
    Nat.add_mul_div_left _ _ positive, Nat.add_comm]

/-- The state after a further piece. -/
theorem absorbed_append (state : σ) (data piece : List α) :
    absorbed compress size state (data ++ piece) =
      absorbed compress size (absorbed compress size state data)
        (leftOver size data ++ piece) := by
  have enough : data.length / size * size ≤ data.length :=
    Nat.div_mul_le_self _ _
  unfold absorbed
  rw [length_append_div positive, foldBlocks_add,
    foldBlocks_append _ _ _ _ _ _ enough,
    List.drop_append_of_le_length enough]
  rfl

/-- What is left over after a further piece. -/
theorem leftOver_append (data piece : List α) :
    leftOver size (data ++ piece) = leftOver size (leftOver size data ++ piece) := by
  have enough : data.length / size * size ≤ data.length :=
    Nat.div_mul_le_self _ _
  rw [leftOver, length_append_div positive, Nat.add_mul, ← List.drop_drop,
    List.drop_append_of_le_length enough]
  rfl

/-- A whole block in front is compressed first. -/
theorem absorbed_block (state : σ) {block : List α} (data : List α)
    (whole : block.length = size) :
    absorbed compress size state (block ++ data) =
      absorbed compress size (compress state block) data := by
  have count : (block ++ data).length / size = data.length / size + 1 := by
    rw [List.length_append, whole, Nat.add_comm, Nat.add_div_right _ positive]
  rw [absorbed, count, foldBlocks_succ, ← whole, List.take_left,
    List.drop_left]
  rfl

theorem leftOver_block {block : List α} (data : List α)
    (whole : block.length = size) :
    leftOver size (block ++ data) = leftOver size data := by
  have count : (block ++ data).length / size = data.length / size + 1 := by
    rw [List.length_append, whole, Nat.add_comm, Nat.add_div_right _ positive]
  rw [leftOver, count, Nat.succ_mul, Nat.add_comm, ← List.drop_drop]
  conv_lhs => rw [← whole, List.drop_left, whole]
  rfl

end Pieces

end BlockHash
end UIoT
