import UIoT.Defs
import UIoT.Library.BlockHash

/-!
# Hashing in pieces

What `utils_md5.c` and `utils_sha2.c` have in common: the context of a running
digest, its update with a piece of the data, and the padding at its end, which
goes through the same update.
-/

namespace UIoT
namespace StreamingHash

open BlockHash

/-- `iot_md5_context` and `iot_sha256_context`: the number of bytes in two
words, the words of the digest and the block that is not complete. -/
structure Context (σ : Type) where
  total0 : UInt32
  total1 : UInt32
  state : σ
  buffer : Memory

variable {σ : Type} (process : σ → List UInt8 → σ)

/-- A context as initialised and started. -/
def starts (initial : σ) : Context σ := ⟨0, 0, initial, fun _ => 0⟩

/-- `utils_md5_starts` and `utils_sha256_starts` on what a context held
before. -/
def startsOn (initial : σ) (ctx : Context σ) : Context σ :=
  { ctx with total0 := 0, total1 := 0, state := initial }

/-- The bytes of a piece: first those that fill a block already begun, then
whole blocks, then the beginning of one more. -/
def feed (state : σ) (buffer : Memory) (left : Nat) (input : List UInt8) :
    σ × Memory :=
  let fill := 64 - left
  if left ≠ 0 ∧ fill ≤ input.length then
    let buffer := buffer.write left (input.take fill)
    let state := process state (buffer.slice 0 64)
    let input := input.drop fill
    (absorbed process 64 state input, buffer.write 0 (leftOver 64 input))
  else
    (absorbed process 64 state input, buffer.write left (leftOver 64 input))

/-- `utils_md5_update` and `utils_sha256_update` -/
def update (ctx : Context σ) (input : List UInt8) : Context σ :=
  if input.length = 0 then ctx
  else
    let left := (ctx.total0 &&& 0x3F).toNat
    let ilen := UInt32.ofNat input.length
    let total0 := ctx.total0 + ilen
    let total1 := if total0 < ilen then ctx.total1 + 1 else ctx.total1
    let (state, buffer) := feed process ctx.state ctx.buffer left input
    { total0, total1, state, buffer }

/-- `iot_md5_padding` and `sha256_padding` -/
def padding : List UInt8 := 0x80 :: List.replicate 63 0

/-- `padn`: the padding bytes in front of the length. -/
def paddingLength (last : Nat) : Nat :=
  if last < 56 then 56 - last else 120 - last

/-- What `utils_md5_finish` and `utils_sha256_finish` feed, `msglen` being how
they write the two words of the length. -/
def finish (msglen : UInt32 → UInt32 → List UInt8) (ctx : Context σ) :
    Context σ :=
  let high := ctx.total0 >>> 29 ||| ctx.total1 <<< 3
  let low := ctx.total0 <<< 3
  let last := (ctx.total0 &&& 0x3F).toNat
  let ctx := update process ctx (padding.take (paddingLength last))
  update process ctx (msglen low high)

/-! ## The data as a whole -/

/-- A context has been fed the data. -/
structure Fed (initial : σ) (ctx : Context σ) (data : List UInt8) : Prop where
  total : ctx.total0.toNat + 2 ^ 32 * ctx.total1.toNat = data.length % 2 ^ 64
  state : ctx.state = absorbed process 64 initial data
  buffer : ctx.buffer.slice 0 (data.length % 64) = leftOver 64 data

/-- The standard padding of data: a one bit, zeros, and the number of bits. -/
def padded (msglen : UInt32 → UInt32 → List UInt8) (data : List UInt8) :
    List UInt8 :=
  data ++ (0x80 :: List.replicate ((119 - data.length % 64) % 64) 0 ++
    msglen (UInt32.ofNat (8 * data.length))
      (UInt32.ofNat (8 * data.length / 2 ^ 32)))

theorem starts_fed (initial : σ) :
    Fed process initial (starts initial) [] :=
  ⟨rfl, rfl, rfl⟩

theorem startsOn_fed (initial : σ) (ctx : Context σ) :
    Fed process initial (startsOn initial ctx) [] :=
  ⟨rfl, rfl, rfl⟩

variable {process} {initial : σ} {ctx : Context σ} {data : List UInt8}

/-- The low bits of the count say how full the block is. -/
theorem Fed.left (fed : Fed process initial ctx data) :
    (ctx.total0 &&& 0x3F).toNat = data.length % 64 := by
  have total := fed.total
  have mask : (ctx.total0 &&& 0x3F).toNat = ctx.total0.toNat % 64 := by
    rw [UInt32.toNat_and]
    exact Nat.and_two_pow_sub_one_eq_mod _ 6
  omega

/-- A slice up to the end of what was written behind its first part. -/
theorem slice_write_behind (memory : Memory) (left : Nat)
    (bytes : List UInt8) :
    (memory.write left bytes).slice 0 (left + bytes.length) =
      memory.slice 0 left ++ bytes := by
  rw [Memory.slice_add,
    Memory.slice_write_before _ _ (Nat.le_of_eq (Nat.zero_add _)),
    Nat.zero_add, Memory.slice_write_same]

/-- Feeding a piece gives the state and the begun block of the longer data. -/
theorem feed_eq {state : σ} {buffer : Memory}
    (states : state = absorbed process 64 initial data)
    (begun : buffer.slice 0 (data.length % 64) = leftOver 64 data)
    (input : List UInt8) :
    let (after, block) := feed process state buffer (data.length % 64) input
    after = absorbed process 64 initial (data ++ input) ∧
      block.slice 0 ((data ++ input).length % 64) =
        leftOver 64 (data ++ input) := by
  have positive : 0 < 64 := by decide
  have rest : (leftOver 64 input).length = input.length % 64 :=
    length_leftOver input
  have begunLength : (leftOver 64 data).length = data.length % 64 :=
    length_leftOver data
  rw [absorbed_append _ positive, leftOver_append positive, ← states]
  unfold feed
  dsimp only
  split
  · rename_i fills
    obtain ⟨begins, enough⟩ := fills
    have takes : (input.take (64 - data.length % 64)).length =
        64 - data.length % 64 := by
      rw [List.length_take]
      omega
    have block : (buffer.write (data.length % 64)
        (input.take (64 - data.length % 64))).slice 0 64 =
        leftOver 64 data ++ input.take (64 - data.length % 64) := by
      have full : data.length % 64 +
          (input.take (64 - data.length % 64)).length = 64 := by omega
      have written := slice_write_behind buffer (data.length % 64)
        (input.take (64 - data.length % 64))
      rw [full, begun] at written
      exact written
    have whole : (leftOver 64 data ++
        input.take (64 - data.length % 64)).length = 64 := by
      rw [List.length_append, takes, begunLength]
      omega
    have pieces : leftOver 64 data ++ input =
        (leftOver 64 data ++ input.take (64 - data.length % 64)) ++
          input.drop (64 - data.length % 64) := by
      rw [List.append_assoc, List.take_append_drop]
    have length : (data ++ input).length % 64 =
        (leftOver 64 (input.drop (64 - data.length % 64))).length := by
      rw [length_leftOver, List.length_drop, List.length_append]
      omega
    rw [pieces, absorbed_block _ positive _ _ whole,
      leftOver_block positive _ whole, block, length, Memory.slice_write_same]
    exact ⟨rfl, rfl⟩
  · rename_i short
    by_cases begins : data.length % 64 = 0
    · have nothing : leftOver 64 data = [] := by
        apply List.eq_nil_of_length_eq_zero
        rw [begunLength, begins]
      have length : (data ++ input).length % 64 =
          (leftOver 64 input).length := by
        rw [rest, List.length_append]
        omega
      rw [nothing, List.nil_append, begins, length, Memory.slice_write_same]
      exact ⟨rfl, rfl⟩
    · have few : input.length < 64 - data.length % 64 := by omega
      have together : (leftOver 64 data ++ input).length < 64 := by
        rw [List.length_append, begunLength]
        omega
      have inputShort : input.length < 64 := by omega
      have length : (data ++ input).length % 64 =
          data.length % 64 + input.length := by
        rw [List.length_append]
        omega
      rw [absorbed_of_short _ _ together, leftOver_of_short together,
        absorbed_of_short _ _ inputShort, leftOver_of_short inputShort, length,
        slice_write_behind, begun]
      exact ⟨rfl, rfl⟩

/-- One update feeds its piece. -/
theorem Fed.update (fed : Fed process initial ctx data) {input : List UInt8}
    (small : input.length < 2 ^ 32) :
    Fed process initial (update process ctx input) (data ++ input) := by
  unfold StreamingHash.update
  by_cases empty : input.length = 0
  · rw [if_pos empty, List.eq_nil_of_length_eq_zero empty, List.append_nil]
    exact fed
  · have total := fed.total
    have fedPiece := feed_eq fed.state fed.buffer input
    rw [if_neg empty, fed.left]
    dsimp only
    generalize feed process ctx.state ctx.buffer (data.length % 64) input =
      result at fedPiece ⊢
    obtain ⟨state, buffer⟩ := result
    refine ⟨?_, fedPiece.1, fedPiece.2⟩
    have count : (UInt32.ofNat input.length).toNat = input.length :=
      UInt32.toNat_ofNat_of_lt' small
    have low := ctx.total0.toNat_lt
    have high := ctx.total1.toNat_lt
    have sum := UInt32.toNat_add ctx.total0 (UInt32.ofNat input.length)
    have next := UInt32.toNat_add ctx.total1 1
    have one : (1 : UInt32).toNat = 1 := rfl
    dsimp only
    split
    · rename_i wraps
      rw [UInt32.lt_iff_toNat_lt] at wraps
      rw [List.length_append]
      omega
    · rename_i stays
      rw [UInt32.lt_iff_toNat_lt] at stays
      rw [List.length_append]
      omega

/-- The updates of a whole run feed the pieces one after the other. -/
theorem Fed.foldl (fed : Fed process initial ctx data)
    {pieces : List (List UInt8)}
    (small : ∀ piece ∈ pieces, piece.length < 2 ^ 32) :
    Fed process initial (pieces.foldl (StreamingHash.update process) ctx)
      (data ++ pieces.flatten) := by
  induction pieces generalizing ctx data with
  | nil => simpa using fed
  | cons piece pieces inductionHypothesis =>
      have first := fed.update (small piece List.mem_cons_self)
      have rest := inductionHypothesis first fun other mem =>
        small other (List.mem_cons_of_mem _ mem)
      rw [List.append_assoc] at rest
      exact rest

/-- The padding bytes in front of the length fill up to its place. -/
theorem take_padding {last : Nat} (inBlock : last < 64) :
    padding.take (paddingLength last) =
      0x80 :: List.replicate ((119 - last) % 64) 0 := by
  have count : paddingLength last = (119 - last) % 64 + 1 := by
    unfold paddingLength
    split <;> omega
  have enough : min ((119 - last) % 64) 63 = (119 - last) % 64 := by omega
  rw [count, padding, List.take_succ_cons, List.take_replicate, enough]

/-- The low word of the number of bits. -/
theorem Fed.low (fed : Fed process initial ctx data) :
    ctx.total0 <<< 3 = UInt32.ofNat (8 * data.length) := by
  have total := fed.total
  apply UInt32.toNat.inj
  have shift := UInt32.toNat_shiftLeft ctx.total0 3
  have three : (3 : UInt32).toNat % 32 = 3 := rfl
  rw [three, Nat.shiftLeft_eq] at shift
  rw [shift, UInt32.toNat_ofNat']
  omega

/-- The high word of the number of bits. -/
theorem Fed.high (fed : Fed process initial ctx data) :
    ctx.total0 >>> 29 ||| ctx.total1 <<< 3 =
      UInt32.ofNat (8 * data.length / 2 ^ 32) := by
  have total := fed.total
  have low := ctx.total0.toNat_lt
  apply UInt32.toNat.inj
  have right := UInt32.toNat_shiftRight ctx.total0 29
  have left := UInt32.toNat_shiftLeft ctx.total1 3
  have three : (3 : UInt32).toNat % 32 = 3 := rfl
  have twentyNine : (29 : UInt32).toNat % 32 = 29 := rfl
  rw [twentyNine, Nat.shiftRight_eq_div_pow] at right
  rw [three, Nat.shiftLeft_eq] at left
  have three_bits : ctx.total0.toNat / 2 ^ 29 < 2 ^ 3 := by omega
  have aligned : ctx.total1.toNat * 2 ^ 3 % 2 ^ 32 =
      2 ^ 3 * (ctx.total1.toNat % 2 ^ 29) := by omega
  rw [UInt32.toNat_or, right, left, aligned, Nat.or_comm,
    ← Nat.two_pow_add_eq_or_of_lt three_bits, UInt32.toNat_ofNat']
  omega

/-- The end of a digest feeds the rest of the padded data. -/
theorem Fed.finish_fed (fed : Fed process initial ctx data)
    {msglen : UInt32 → UInt32 → List UInt8}
    (short : ∀ low high, (msglen low high).length < 2 ^ 32) :
    Fed process initial (finish process msglen ctx) (padded msglen data) := by
  have inBlock : data.length % 64 < 64 := Nat.mod_lt _ (by decide)
  have front := take_padding inBlock
  have frontShort :
      (padding.take (paddingLength (data.length % 64))).length < 2 ^ 32 := by
    rw [List.length_take]
    have length : padding.length = 64 := rfl
    omega
  have fedFront := fed.update frontShort
  have fedAll := fedFront.update
    (short (UInt32.ofNat (8 * data.length))
      (UInt32.ofNat (8 * data.length / 2 ^ 32)))
  unfold StreamingHash.finish
  rw [fed.left, fed.low, fed.high]
  rw [front, List.append_assoc] at fedAll
  dsimp only
  rw [front]
  exact fedAll

/-- The end of a digest leaves the state after the padded data. -/
theorem Fed.finish (fed : Fed process initial ctx data)
    {msglen : UInt32 → UInt32 → List UInt8}
    (short : ∀ low high, (msglen low high).length < 2 ^ 32) :
    (finish process msglen ctx).state =
      absorbed process 64 initial (padded msglen data) :=
  (fed.finish_fed short).state

/-! ## The standard padding -/

/-- The eight low bytes of a number, the lowest one first. -/
def littleEndian (number : Nat) : List UInt8 :=
  (List.range 8).map fun index => UInt8.ofNat (number / 2 ^ (8 * index))

/-- The eight low bytes of a number, the highest one first. -/
def bigEndian (number : Nat) : List UInt8 := (littleEndian number).reverse

/-- The standard padding of a message: `0x80`, the zeros up to 56 modulo 64 and
the number of bits in eight bytes. -/
def standardPadded (eightBytes : Nat → List UInt8) (message : List UInt8) :
    List UInt8 :=
  message ++ 0x80 :: List.replicate ((119 - message.length % 64) % 64) 0 ++
    eightBytes (8 * message.length)

/-- The length is written behind 56 bytes of a block. -/
theorem standardPadded_before_length (message : List UInt8) :
    (message ++ 0x80 ::
        List.replicate ((119 - message.length % 64) % 64) (0 : UInt8)).length %
      64 = 56 := by
  rw [List.length_append, List.length_cons, List.length_replicate]
  omega

/-- A padded message is made of whole blocks. -/
theorem standardPadded_whole {eightBytes : Nat → List UInt8}
    (eight : ∀ number, (eightBytes number).length = 8)
    (message : List UInt8) :
    leftOver 64 (standardPadded eightBytes message) = [] := by
  have before := standardPadded_before_length message
  apply List.eq_nil_of_length_eq_zero
  rw [length_leftOver, standardPadded, List.length_append, eight]
  omega

/-- The padding that is fed is the standard one where the two words of the
length are written as its eight bytes. -/
theorem padded_eq_standardPadded {msglen : UInt32 → UInt32 → List UInt8}
    {eightBytes : Nat → List UInt8}
    (writes : ∀ number, msglen (UInt32.ofNat number)
      (UInt32.ofNat (number / 2 ^ 32)) = eightBytes number)
    (message : List UInt8) :
    padded msglen message = standardPadded eightBytes message := by
  rw [padded, standardPadded, writes, List.append_assoc, List.cons_append]

/-- A byte of the word of a number is a byte of the number. -/
theorem shifted_byte (number : Nat) {shift : UInt32}
    (inside : shift.toNat + 8 ≤ 32) :
    (UInt32.ofNat number >>> shift).toUInt8 =
      UInt8.ofNat (number / 2 ^ shift.toNat) := by
  apply UInt8.toNat.inj
  have count : shift.toNat % 32 = shift.toNat :=
    Nat.mod_eq_of_lt (by omega)
  have split : 2 ^ 32 = 2 ^ shift.toNat * 2 ^ (32 - shift.toNat) := by
    rw [← Nat.pow_add]
    congr 1
    omega
  rw [UInt32.toNat_toUInt8, UInt32.toNat_shiftRight, count,
    Nat.shiftRight_eq_div_pow, UInt32.toNat_ofNat', UInt8.toNat_ofNat', split,
    Nat.mod_mul_right_div_self]
  exact Nat.mod_mod_of_dvd _ (Nat.pow_dvd_pow 2 (by omega))

/-- The four bytes of the low word. -/
theorem low_bytes (number : Nat) :
    [(UInt32.ofNat number).toUInt8, (UInt32.ofNat number >>> 8).toUInt8,
      (UInt32.ofNat number >>> 16).toUInt8,
      (UInt32.ofNat number >>> 24).toUInt8] =
    [UInt8.ofNat number, UInt8.ofNat (number / 2 ^ 8),
      UInt8.ofNat (number / 2 ^ 16), UInt8.ofNat (number / 2 ^ 24)] := by
  have first := shifted_byte number (by decide : (8 : UInt32).toNat + 8 ≤ 32)
  have second := shifted_byte number (by decide : (16 : UInt32).toNat + 8 ≤ 32)
  have third := shifted_byte number (by decide : (24 : UInt32).toNat + 8 ≤ 32)
  rw [first, second, third]
  congr 1
  apply UInt8.toNat.inj
  rw [UInt32.toNat_toUInt8, UInt32.toNat_ofNat', UInt8.toNat_ofNat']
  omega

/-- The eight bytes are those of the low word and those of the high word. -/
theorem littleEndian_eq (number : Nat) :
    littleEndian number =
      [UInt8.ofNat number, UInt8.ofNat (number / 2 ^ 8),
        UInt8.ofNat (number / 2 ^ 16), UInt8.ofNat (number / 2 ^ 24)] ++
      [UInt8.ofNat (number / 2 ^ 32), UInt8.ofNat (number / 2 ^ 32 / 2 ^ 8),
        UInt8.ofNat (number / 2 ^ 32 / 2 ^ 16),
        UInt8.ofNat (number / 2 ^ 32 / 2 ^ 24)] := by
  simp only [Nat.div_div_eq_div_mul, ← Nat.pow_add]
  change UInt8.ofNat (number / 2 ^ 0) :: _ = _
  rw [Nat.pow_zero, Nat.div_one]
  rfl

/-! ## Splittings -/

/-- A digest in pieces is the digest of the whole: whatever the context held
before, the pieces of any splitting give the digest of the string they make up,
two splittings of a string give the same, and so does the string at once. -/
structure DigestsWhole {Ctx : Type} (starts : Ctx → Ctx)
    (update : Ctx → List UInt8 → Ctx) (finish : Ctx → List UInt8)
    (atOnce digest : List UInt8 → List UInt8) : Prop where
  whole : ∀ (ctx : Ctx) (pieces : List (List UInt8)),
    (∀ piece ∈ pieces, piece.length < 2 ^ 32) →
    finish (pieces.foldl update (starts ctx)) = digest pieces.flatten
  splittings : ∀ (ctx other : Ctx) (pieces others : List (List UInt8)),
    (∀ piece ∈ pieces, piece.length < 2 ^ 32) →
    (∀ piece ∈ others, piece.length < 2 ^ 32) →
    pieces.flatten = others.flatten →
    finish (pieces.foldl update (starts ctx)) =
      finish (others.foldl update (starts other))
  once : ∀ (ctx : Ctx) (pieces : List (List UInt8)),
    (∀ piece ∈ pieces, piece.length < 2 ^ 32) →
    pieces.flatten.length < 2 ^ 32 →
    finish (pieces.foldl update (starts ctx)) = atOnce pieces.flatten

/-- The pieces of a splitting decide it all: the string at once is one of
them. -/
theorem DigestsWhole.of_whole {Ctx : Type} {starts : Ctx → Ctx}
    {update : Ctx → List UInt8 → Ctx} {finish : Ctx → List UInt8}
    {atOnce digest : List UInt8 → List UInt8}
    (whole : ∀ (ctx : Ctx) (pieces : List (List UInt8)),
      (∀ piece ∈ pieces, piece.length < 2 ^ 32) →
      finish (pieces.foldl update (starts ctx)) = digest pieces.flatten)
    (init : Ctx) (once : ∀ input,
      atOnce input = finish (update (starts init) input)) :
    DigestsWhole starts update finish atOnce digest where
  whole := whole
  splittings ctx other pieces others small smallOthers same := by
    rw [whole ctx pieces small, whole other others smallOthers, same]
  once ctx pieces small short := by
    have alone := whole init [pieces.flatten]
      (List.forall_mem_singleton.mpr short)
    rw [List.flatten_singleton] at alone
    rw [whole ctx pieces small, once, ← alone]
    rfl

end StreamingHash
end UIoT
