import Mathlib.Data.Nat.Digits.Defs
import Mathlib.Tactic.Ring

/-!
# Base-128 numbers with continuation bits

A number is written least significant digit first, seven bits to a byte, and
the top bit of a byte says that another one follows.  The decoder reads its
bytes from any source, one at a time, and gives up after a fixed number of
them.
-/

namespace ContinuationCode

universe u v

/-- Encode a value in at most `digits` bytes. -/
def encode : (digits : Nat) → (value : Nat) → List UInt8
  | 0, _ => []
  | digits + 1, value =>
      let byte := UInt8.ofNat (value % 128)
      if 0 < value / 128 then
        (byte ||| 0x80) :: encode digits (value / 128)
      else
        [byte]

/-- Decode from a source that hands out one byte at a time or fails.  The
fuel is the number of bytes the decoder accepts before it reports
`tooLong`. -/
def decode {σ : Type u} {ε : Type v}
    (next : σ → σ × Except ε UInt8) (tooLong : ε) :
    (fuel multiplier value : Nat) → σ → σ × Except ε Nat
  | 0, _, _, source => (source, .error tooLong)
  | fuel + 1, multiplier, value, source =>
      match next source with
      | (rest, .error failure) => (rest, .error failure)
      | (rest, .ok byte) =>
          let total := value + (byte &&& 127).toNat * multiplier
          if byte &&& 128 ≠ 0 then
            decode next tooLong fuel (multiplier * 128) total rest
          else
            (rest, .ok total)

/-! ## Single bytes -/

theorem low_bits_of_last :
    ∀ digit < 128, (UInt8.ofNat digit &&& 127).toNat = digit := by decide

theorem top_bit_of_last :
    ∀ digit < 128, UInt8.ofNat digit &&& 128 = 0 := by decide

theorem low_bits_of_continued :
    ∀ digit < 128, ((UInt8.ofNat digit ||| 0x80) &&& 127).toNat = digit := by
  decide

theorem top_bit_of_continued :
    ∀ digit < 128, (UInt8.ofNat digit ||| 0x80) &&& 128 ≠ 0 := by decide

/-! ## Length of the encoding -/

theorem encode_length_le (digits value : Nat) :
    (encode digits value).length ≤ digits := by
  induction digits generalizing value with
  | zero => simp [encode]
  | succ digits inductionHypothesis =>
      have shorter := inductionHypothesis (value / 128)
      simp only [encode]
      split
      · simpa using shorter
      · simp

theorem encode_ne_nil {digits : Nat} (positive : 0 < digits) (value : Nat) :
    encode digits value ≠ [] := by
  obtain ⟨digits, rfl⟩ := Nat.exists_eq_succ_of_ne_zero positive.ne'
  simp only [encode]
  split <;> simp

theorem encode_length_pos {digits : Nat} (positive : 0 < digits) (value : Nat) :
    0 < (encode digits value).length :=
  List.length_pos_iff.mpr (encode_ne_nil positive value)

/-- The next digit group of a value below `128 ^ (digits + 1)`. -/
theorem div_lt_pow {digits value : Nat} (bound : value < 128 ^ (digits + 1)) :
    value / 128 < 128 ^ digits := by
  apply Nat.div_lt_of_lt_mul
  rwa [Nat.pow_succ, Nat.mul_comm] at bound

/-- Room for more digits than a value needs changes nothing. -/
theorem encode_eq_of_lt {digits value : Nat}
    (bound : value < 128 ^ digits) (positive : 0 < digits) (more : Nat) :
    encode (digits + more) value = encode digits value := by
  induction digits generalizing value with
  | zero => exact absurd positive (Nat.lt_irrefl 0)
  | succ digits inductionHypothesis =>
      rw [Nat.succ_add]
      simp only [encode]
      split
      · rename_i continued
        have smaller := div_lt_pow bound
        have stillPositive : 0 < digits := by
          rcases Nat.eq_zero_or_pos digits with rfl | positive
          · simp only [Nat.pow_zero] at smaller
            omega
          · exact positive
        rw [inductionHypothesis smaller stillPositive]
      · rfl

/-! ## Decoding what was encoded -/

section Sources

variable {σ : Type u} {ε : Type v} (next : σ → σ × Except ε UInt8)

/-- The source hands out these bytes in order and is left in `finish`. -/
def Supplies : σ → List UInt8 → σ → Prop
  | start, [], finish => start = finish
  | start, byte :: bytes, finish =>
      ∃ rest, next start = (rest, .ok byte) ∧ Supplies rest bytes finish

variable {next}

/-- A source that supplies the encoding of a value makes the decoder return
that value, after reading exactly the encoding. -/
theorem decode_of_supplies (tooLong : ε) {digits value : Nat} {fuel : Nat}
    (bound : value < 128 ^ digits) (positive : 0 < digits)
    (enough : digits ≤ fuel) (multiplier total : Nat) {start finish : σ}
    (supplies : Supplies next start (encode digits value) finish) :
    decode next tooLong fuel multiplier total start =
      (finish, .ok (total + value * multiplier)) := by
  induction digits generalizing value fuel multiplier total start with
  | zero => exact absurd positive (Nat.lt_irrefl 0)
  | succ digits inductionHypothesis =>
      obtain ⟨fuel, rfl⟩ := Nat.exists_eq_succ_of_ne_zero
        (Nat.lt_of_lt_of_le positive enough).ne'
      have digit : value % 128 < 128 := Nat.mod_lt _ (by decide)
      have parts : value = value % 128 + 128 * (value / 128) :=
        (Nat.mod_add_div value 128).symm
      simp only [encode] at supplies
      split at supplies
      · rename_i continued
        obtain ⟨rest, first, others⟩ := supplies
        have smaller := div_lt_pow bound
        have stillPositive : 0 < digits := by
          rcases Nat.eq_zero_or_pos digits with rfl | positive
          · simp only [Nat.pow_zero] at smaller
            omega
          · exact positive
        simp only [decode, first, top_bit_of_continued _ digit, ne_eq,
          not_false_eq_true, if_true, low_bits_of_continued _ digit]
        rw [inductionHypothesis smaller stillPositive
          (Nat.le_of_succ_le_succ enough) _ _ others]
        congr 2
        conv_rhs => rw [parts]
        ring
      · rename_i final
        obtain ⟨rest, first, rfl⟩ := supplies
        have small : value % 128 = value := by omega
        rw [small] at first digit
        simp only [decode, first, top_bit_of_last _ digit, ne_eq,
          not_true_eq_false, if_false, low_bits_of_last _ digit]

/-- A source that fails after a proper prefix of an encoding makes the
decoder fail there. -/
theorem decode_of_failure {tooLong failure : ε} {digits value : Nat}
    {fuel : Nat} (enough : digits ≤ fuel) (multiplier total : Nat)
    {start middle finish : σ} {before after : List UInt8}
    (parts : encode digits value = before ++ after) (unfinished : after ≠ [])
    (supplies : Supplies next start before middle)
    (fails : next middle = (finish, .error failure)) :
    decode next tooLong fuel multiplier total start =
      (finish, .error failure) := by
  induction digits generalizing value fuel multiplier total start before with
  | zero =>
      simp only [encode] at parts
      have empty := List.append_eq_nil_iff.mp parts.symm
      exact absurd empty.2 unfinished
  | succ digits inductionHypothesis =>
      obtain ⟨fuel, rfl⟩ := Nat.exists_eq_succ_of_ne_zero
        (Nat.lt_of_lt_of_le (Nat.succ_pos digits) enough).ne'
      cases before with
      | nil =>
          obtain rfl : start = middle := supplies
          simp only [decode, fails]
      | cons byte before =>
          obtain ⟨rest, first, others⟩ := supplies
          have digit : value % 128 < 128 := Nat.mod_lt _ (by decide)
          simp only [encode] at parts
          split at parts
          · rw [List.cons_append, List.cons.injEq] at parts
            obtain ⟨rfl, parts⟩ := parts
            simp only [decode, first, top_bit_of_continued _ digit, ne_eq,
              not_false_eq_true, if_true]
            exact inductionHypothesis (Nat.le_of_succ_le_succ enough) _ _
              parts others
          · rw [List.cons_append, List.cons.injEq] at parts
            have empty := List.append_eq_nil_iff.mp parts.2.symm
            exact absurd empty.2 unfinished

end Sources

/-! ## Canonical form -/

/-- The digits of a value, least significant first; zero has one digit. -/
def digitsOf (value : Nat) : List Nat :=
  if value = 0 then [0] else Nat.digits 128 value

/-- The bytes are the digits of the value, no more than it needs, and all of
them but the last have the top bit. -/
structure Canonical (value : Nat) (bytes : List UInt8) : Prop where
  digits : bytes.map (fun byte => byte.toNat % 128) = digitsOf value
  continued : ∀ byte ∈ bytes.dropLast, 128 ≤ byte.toNat
  ended : ∀ byte ∈ bytes.getLast?, byte.toNat < 128

theorem toNat_of_continued :
    ∀ digit < 128, (UInt8.ofNat digit ||| 0x80).toNat = digit + 128 := by
  decide

/-- Encoding gives the canonical form of a value that fits. -/
theorem encode_canonical {digits value : Nat} (bound : value < 128 ^ digits)
    (positive : 0 < digits) : Canonical value (encode digits value) := by
  induction digits generalizing value with
  | zero => exact absurd positive (Nat.lt_irrefl 0)
  | succ digits inductionHypothesis =>
      have digit : value % 128 < 128 := Nat.mod_lt _ (by decide)
      have low : (UInt8.ofNat (value % 128)).toNat = value % 128 := by
        rw [UInt8.toNat_ofNat']
        exact Nat.mod_eq_of_lt (by omega)
      simp only [encode]
      split
      · rename_i more
        have smaller := div_lt_pow bound
        have stillPositive : 0 < digits := by
          rcases Nat.eq_zero_or_pos digits with rfl | positive
          · simp only [Nat.pow_zero] at smaller
            omega
          · exact positive
        have rest := inductionHypothesis smaller stillPositive
        have nonempty := encode_ne_nil stillPositive (value / 128)
        have high := toNat_of_continued _ digit
        refine ⟨?_, ?_, ?_⟩
        · have first : (value % 128 + 128) % 128 = value % 128 := by omega
          have quotient : value / 128 ≠ 0 := more.ne'
          have nonzero : value ≠ 0 := by
            rintro rfl
            exact quotient rfl
          have digits_rest := rest.digits
          rw [digitsOf, if_neg quotient] at digits_rest
          rw [List.map_cons, high, first, digits_rest, digitsOf,
            if_neg nonzero, Nat.digits_def' (by decide) (Nat.pos_of_ne_zero
              nonzero)]
        · rw [List.dropLast_cons_of_ne_nil nonempty, List.forall_mem_cons]
          exact ⟨high ▸ Nat.le_add_left .., rest.continued⟩
        · rw [List.getLast?_cons_of_ne_nil nonempty]
          exact rest.ended
      · rename_i final
        have small : value % 128 = value := by omega
        refine ⟨?_, nofun, ?_⟩
        · rw [List.map_singleton, low, Nat.mod_mod, small, digitsOf]
          split
          · rename_i zero
            rw [zero]
          · rename_i nonzero
            rw [Nat.digits_of_lt 128 value nonzero (by omega)]
        · intro byte last
          rw [List.getLast?_singleton] at last
          obtain rfl := Option.some.inj last
          omega

/-! ## Decoding any bytes -/

section Bytes

variable {σ : Type u} {ε : Type v} {next : σ → σ × Except ε UInt8}

/-- The value of the low bits of bytes, least significant first. -/
def valueOf : List UInt8 → Nat
  | [] => 0
  | byte :: bytes => (byte &&& 127).toNat + 128 * valueOf bytes

/-- A number whose bytes all have the top bit is too long. -/
theorem decode_of_continued (tooLong : ε) {bytes : List UInt8}
    (continued : ∀ byte ∈ bytes, byte &&& 128 ≠ 0) (multiplier total : Nat)
    {start finish : σ} (supplies : Supplies next start bytes finish) :
    decode next tooLong bytes.length multiplier total start =
      (finish, .error tooLong) := by
  induction bytes generalizing multiplier total start with
  | nil =>
      obtain rfl : start = finish := supplies
      rfl
  | cons byte bytes inductionHypothesis =>
      obtain ⟨rest, first, others⟩ := supplies
      have more := continued byte List.mem_cons_self
      simp only [List.length_cons, decode, first, if_pos more]
      exact inductionHypothesis
        (fun other mem => continued other (List.mem_cons_of_mem _ mem)) _ _
        others

/-- A number ends at its first byte without the top bit. -/
theorem decode_of_ended (tooLong : ε) {before : List UInt8} {last : UInt8}
    (continued : ∀ byte ∈ before, byte &&& 128 ≠ 0)
    (ended : last &&& 128 = 0) {fuel : Nat} (enough : before.length < fuel)
    (multiplier total : Nat) {start finish : σ}
    (supplies : Supplies next start (before ++ [last]) finish) :
    decode next tooLong fuel multiplier total start =
      (finish, .ok (total + multiplier * valueOf (before ++ [last]))) := by
  induction before generalizing fuel multiplier total start with
  | nil =>
      obtain ⟨fuel, rfl⟩ := Nat.exists_eq_succ_of_ne_zero enough.ne_bot
      obtain ⟨rest, first, rfl⟩ := supplies
      simp only [decode, first, ended, ne_eq, not_true_eq_false, if_false,
        List.nil_append, valueOf, Nat.mul_zero, Nat.add_zero]
      rw [Nat.mul_comm]
  | cons byte before inductionHypothesis =>
      obtain ⟨fuel, rfl⟩ := Nat.exists_eq_succ_of_ne_zero enough.ne_bot
      obtain ⟨rest, first, others⟩ := supplies
      have more := continued byte List.mem_cons_self
      simp only [decode, first, if_pos more, List.cons_append, valueOf]
      rw [inductionHypothesis
        (fun other mem => continued other (List.mem_cons_of_mem _ mem))
        (Nat.lt_of_succ_lt_succ enough) _ _ others]
      congr 2
      ring

/-- Either all bytes have the top bit, or there is a first one without it. -/
theorem all_continued_or_ended (bytes : List UInt8) :
    (∀ byte ∈ bytes, byte &&& 128 ≠ 0) ∨
      ∃ before last after, bytes = before ++ last :: after ∧
        (∀ byte ∈ before, byte &&& 128 ≠ 0) ∧ last &&& 128 = 0 := by
  induction bytes with
  | nil => exact .inl nofun
  | cons byte bytes inductionHypothesis =>
      by_cases ended : byte &&& 128 = 0
      · exact .inr ⟨[], byte, bytes, rfl, nofun, ended⟩
      · rcases inductionHypothesis with all | ⟨before, last, after, parts,
          continued, final⟩
        · exact .inl (List.forall_mem_cons.mpr ⟨ended, all⟩)
        · refine .inr ⟨byte :: before, last, after, ?_, ?_, final⟩
          · rw [parts, List.cons_append]
          · exact List.forall_mem_cons.mpr ⟨ended, continued⟩

/-- A source that supplies bytes supplies the first of them. -/
theorem Supplies.of_append {before after : List UInt8} {start finish : σ}
    (supplies : Supplies next start (before ++ after) finish) :
    ∃ middle, Supplies next start before middle := by
  induction before generalizing start with
  | nil => exact ⟨start, rfl⟩
  | cons byte before inductionHypothesis =>
      obtain ⟨rest, first, others⟩ := supplies
      obtain ⟨middle, supplied⟩ := inductionHypothesis others
      exact ⟨middle, rest, first, supplied⟩

/-- No intermediate result of the decoder reaches the limit. -/
def StaysBelow (limit : Nat) (next : σ → σ × Except ε UInt8) :
    (fuel multiplier value : Nat) → σ → Prop
  | 0, _, _, _ => True
  | fuel + 1, multiplier, value, source =>
      match next source with
      | (_, .error _) => True
      | (rest, .ok byte) =>
          let digit := (byte &&& 127).toNat
          digit * multiplier < limit ∧ value + digit * multiplier < limit ∧
            multiplier * 128 < limit ∧
            (byte &&& 128 ≠ 0 → StaysBelow limit next fuel (multiplier * 128)
              (value + digit * multiplier) rest)

/-- The multiplier is a bound for the value, and grows with the bytes read. -/
theorem staysBelow_of_pow {limit fuel multiplier value : Nat}
    (below : value < multiplier) (room : multiplier * 128 ^ fuel < limit)
    (source : σ) : StaysBelow limit next fuel multiplier value source := by
  induction fuel generalizing multiplier value source with
  | zero => trivial
  | succ fuel inductionHypothesis =>
      unfold StaysBelow
      split
      · trivial
      · rename_i rest byte _
        have digit : (byte &&& 127).toNat ≤ 127 := by
          rw [UInt8.toNat_and]
          exact Nat.and_le_right
        have product : (byte &&& 127).toNat * multiplier ≤ 127 * multiplier :=
          Nat.mul_le_mul_right _ digit
        have growth : multiplier * 128 * 128 ^ fuel < limit := by
          rwa [Nat.mul_assoc, ← Nat.pow_succ']
        have next_below : multiplier * 128 < limit :=
          Nat.lt_of_le_of_lt
            (Nat.le_mul_of_pos_right _ (Nat.pow_pos (by decide))) growth
        refine ⟨by omega, by omega, next_below, fun _ => ?_⟩
        exact inductionHypothesis (by omega) growth rest

/-- What is decoded has no more digits than bytes were read. -/
theorem decode_lt {tooLong : ε} {fuel multiplier value result : Nat}
    {source rest : σ} (below : value < multiplier)
    (decoded : decode next tooLong fuel multiplier value source =
      (rest, .ok result)) :
    result < multiplier * 128 ^ fuel := by
  induction fuel generalizing multiplier value source with
  | zero => exact absurd (Prod.mk.inj decoded).2 nofun
  | succ fuel inductionHypothesis =>
      unfold decode at decoded
      split at decoded
      · exact absurd (Prod.mk.inj decoded).2 nofun
      · rename_i after byte _
        have digit : (byte &&& 127).toNat ≤ 127 := by
          rw [UInt8.toNat_and]
          exact Nat.and_le_right
        have product : (byte &&& 127).toNat * multiplier ≤ 127 * multiplier :=
          Nat.mul_le_mul_right _ digit
        have power : multiplier * 128 * 128 ^ fuel =
            multiplier * 128 ^ (fuel + 1) := by
          rw [Nat.mul_assoc, ← Nat.pow_succ']
        dsimp only at decoded
        split at decoded
        · rw [← power]
          exact inductionHypothesis (by omega) decoded
        · obtain rfl := Except.ok.inj (Prod.mk.inj decoded).2
          rw [← power]
          have larger : multiplier * 128 ≤ multiplier * 128 * 128 ^ fuel :=
            Nat.le_mul_of_pos_right _ (Nat.pow_pos (by decide))
          omega

end Bytes

/-! ## Telling encodings apart -/

/-- A list of bytes as a source. -/
def popByte : List UInt8 → List UInt8 × Except Unit UInt8
  | [] => ([], .error ())
  | byte :: bytes => (bytes, .ok byte)

theorem supplies_popByte (bytes rest : List UInt8) :
    Supplies popByte (bytes ++ rest) bytes rest := by
  induction bytes with
  | nil => rfl
  | cons byte bytes inductionHypothesis =>
      exact ⟨bytes ++ rest, rfl, inductionHypothesis⟩

/-- What lies behind a number does not matter. -/
theorem decode_popByte_append {fuel multiplier value result : Nat}
    {bytes rest : List UInt8}
    (decoded : decode popByte () fuel multiplier value bytes =
      (rest, .ok result)) (tail : List UInt8) :
    decode popByte () fuel multiplier value (bytes ++ tail) =
      (rest ++ tail, .ok result) := by
  induction fuel generalizing multiplier value bytes with
  | zero => exact absurd (Prod.mk.inj decoded).2 nofun
  | succ fuel inductionHypothesis =>
      cases bytes with
      | nil => exact absurd (Prod.mk.inj decoded).2 nofun
      | cons byte bytes =>
          simp only [decode, popByte, List.cons_append] at decoded ⊢
          split at decoded
          · rename_i continued
            rw [if_pos continued]
            exact inductionHypothesis decoded
          · rename_i ended
            rw [if_neg ended]
            obtain ⟨rfl, value_eq⟩ := Prod.mk.inj decoded
            rw [value_eq]

/-- A value with more digits than the decoder accepts is too long. -/
theorem decode_encode_of_ge {fuel digits value : Nat} (more : fuel < digits)
    (large : 128 ^ fuel ≤ value) (multiplier total : Nat)
    (tail : List UInt8) :
    ∃ rest, decode popByte () fuel multiplier total
      (encode digits value ++ tail) = (rest, .error ()) := by
  induction fuel generalizing digits value multiplier total with
  | zero => exact ⟨_, rfl⟩
  | succ fuel inductionHypothesis =>
      obtain ⟨digits, rfl⟩ := Nat.exists_eq_succ_of_ne_zero more.ne_bot
      have digit : value % 128 < 128 := Nat.mod_lt _ (by decide)
      have quotient : 128 ^ fuel ≤ value / 128 := by
        rw [Nat.le_div_iff_mul_le (by decide), ← Nat.pow_succ]
        exact large
      have positive : 0 < value / 128 :=
        Nat.lt_of_lt_of_le (Nat.pow_pos (by decide)) quotient
      have continued := top_bit_of_continued _ digit
      obtain ⟨rest, fails⟩ := inductionHypothesis
        (Nat.lt_of_succ_lt_succ more) quotient (multiplier * 128)
        (total + ((UInt8.ofNat (value % 128) ||| 0x80) &&& 127).toNat *
          multiplier)
      refine ⟨rest, ?_⟩
      simp only [encode, if_pos positive, List.cons_append, decode, popByte,
        if_pos continued]
      exact fails

/-- No encoding is the beginning of another one. -/
theorem encode_append_inj {digits first second : Nat}
    (firstBound : first < 128 ^ digits) (secondBound : second < 128 ^ digits)
    (positive : 0 < digits) {rest other : List UInt8}
    (same : encode digits first ++ rest = encode digits second ++ other) :
    first = second ∧ rest = other := by
  have left := decode_of_supplies () firstBound positive
    (Nat.le_refl _) 1 0 (supplies_popByte (encode digits first) rest)
  have right := decode_of_supplies () secondBound positive
    (Nat.le_refl _) 1 0 (supplies_popByte (encode digits second) other)
  rw [same, right] at left
  obtain ⟨rests, values⟩ := Prod.mk.inj left
  have values := Except.ok.inj values
  exact ⟨by omega, rests.symm⟩

end ContinuationCode
