import UIoT.Defs

/-!
# Bytes and their hexadecimal digits

`LITE_hexbuf_convert` and `LITE_hexstr_convert` of `string_utils.c`.  The first
one counts the bytes it reads; the second one demands an even length, as a text
of two digits for a byte has one, and counts the bytes it writes with it.
-/

namespace UIoT
namespace Hex

/-! ## The conversions -/

/-- `zEncode[idx]` -/
def zEncode (uppercase : Bool) : List UInt8 :=
  if uppercase then ascii "0123456789ABCDEF" else ascii "0123456789abcdef"

/-- `zEncode[idx][value]` -/
def digit (uppercase : Bool) (value : UInt8) : UInt8 :=
  (zEncode uppercase).getD value.toNat 0

/-- The loop of `LITE_hexbuf_convert`. -/
def hexbufLoop (digest : Memory) (uppercase : Bool) :
    (turns i j : Nat) → (out : Memory) → Memory
  | 0, _, _, out => out
  | turns + 1, i, j, out =>
      let a := digest i
      let out := out.write j [digit uppercase ((a >>> 4) &&& 0xf)]
      let out := out.write (j + 1) [digit uppercase (a &&& 0xf)]
      hexbufLoop digest uppercase turns (i + 1) (j + 2) out

/-- `LITE_hexbuf_convert` -/
def liteHexbufConvert (digest out : Memory) (inLen : Int) (uppercase : Bool) :
    Memory :=
  hexbufLoop digest uppercase inLen.toNat 0 0 out

/-- `_hexval_of_char` -/
def hexvalOfChar (hex : UInt8) : UInt8 :=
  if hex ≤ 57 ∧ 48 ≤ hex then hex - 48
  else if 97 ≤ hex ∧ hex ≤ 102 then hex - 97 + 10
  else if 65 ≤ hex ∧ hex ≤ 70 then hex - 65 + 10
  else 0

/-- What `LITE_hexstr_convert` leaves in `out_buf`, with the indices at which it
has read and written. -/
structure Converted where
  outBuf : Memory
  reads : List Nat
  writes : List Nat

/-- The loop of `LITE_hexstr_convert`. -/
def hexstrLoop (hexstr : Memory) : (turns i : Nat) → Converted → Converted
  | 0, _, done => done
  | turns + 1, i, done =>
      let ch0 := hexvalOfChar (hexstr (2 * i))
      let ch1 := hexvalOfChar (hexstr (2 * i + 1))
      hexstrLoop hexstr turns (i + 1)
        { outBuf := done.outBuf.write i [ch0 <<< 4 ||| ch1]
          reads := done.reads ++ [2 * i, 2 * i + 1]
          writes := done.writes ++ [i] }

/-- `LITE_hexstr_convert` -/
def liteHexstrConvert (hexstr outBuf : Memory) (inLen : Int) : Converted :=
  if inLen.tmod 2 ≠ 0 then ⟨outBuf, [], []⟩
  else hexstrLoop hexstr inLen.toNat 0 ⟨outBuf, [], []⟩

/-! ## Digits -/

/-- A digit is worth what it was printed for. -/
theorem hexvalOfChar_digit (uppercase : Bool) {value : UInt8}
    (small : value < 16) : hexvalOfChar (digit uppercase value) = value := by
  have every : ∀ nibble : Fin 16, ∀ upper : Bool,
      hexvalOfChar (digit upper (UInt8.ofNat nibble)) =
        UInt8.ofNat nibble := by decide
  have written := every ⟨value.toNat, small⟩ uppercase
  rw [UInt8.ofNat_toNat] at written
  exact written

/-- A byte consists of its halves. -/
theorem byte_of_halves (byte : UInt8) :
    ((byte >>> 4) &&& 0xf) <<< 4 ||| (byte &&& 0xf) = byte := by
  have every : ∀ value : Fin 256,
      ((UInt8.ofNat value >>> 4) &&& 0xf) <<< 4 |||
        (UInt8.ofNat value &&& 0xf) = UInt8.ofNat value := by decide +kernel
  have halves := every ⟨byte.toNat, byte.toNat_lt⟩
  rw [UInt8.ofNat_toNat] at halves
  exact halves

/-- A half of a byte is below sixteen. -/
theorem half_small (byte : UInt8) : byte &&& 0xf < 16 := by
  rw [UInt8.lt_iff_toNat_lt, UInt8.toNat_and]
  exact Nat.and_lt_two_pow _ (by decide : (0xf : UInt8).toNat < 2 ^ 4)

/-! ## Texts of digits -/

/-- The text has the two digits of each byte, from an index on. -/
def Spells (text digest : Memory) (uppercase : Bool) (index : Nat) : Prop :=
  text (2 * index) = digit uppercase ((digest index >>> 4) &&& 0xf) ∧
    text (2 * index + 1) = digit uppercase (digest index &&& 0xf)

/-- A write of one byte changes that byte only. -/
theorem write_one (memory : Memory) (offset address : Nat) (byte : UInt8) :
    memory.write offset [byte] address =
      if address = offset then byte else memory address := by
  unfold Memory.write
  by_cases same : address = offset
  · subst same
    simp
  · rw [if_neg same]
    split
    · rename_i behind
      have positive : 1 ≤ address - offset := by omega
      rw [List.getElem?_eq_none positive]
      rfl
    · rfl

/-- What the loop of the first conversion spells, and what it leaves alone. -/
theorem hexbufLoop_spells (digest : Memory) (uppercase : Bool)
    (turns i : Nat) (out : Memory) :
    (∀ index, i ≤ index → index < i + turns →
      Spells (hexbufLoop digest uppercase turns i (2 * i) out) digest uppercase
        index) ∧
    ∀ address, address < 2 * i ∨ 2 * (i + turns) ≤ address →
      hexbufLoop digest uppercase turns i (2 * i) out address =
        out address := by
  induction turns generalizing i out with
  | zero =>
      exact ⟨fun index low high => absurd high (by omega), fun _ _ => rfl⟩
  | succ turns inductionHypothesis =>
      rw [hexbufLoop]
      obtain ⟨spells, keeps⟩ := inductionHypothesis (i + 1)
        ((out.write (2 * i) [digit uppercase ((digest i >>> 4) &&& 0xf)]).write
          (2 * i + 1) [digit uppercase (digest i &&& 0xf)])
      refine ⟨fun index low high => ?_, fun address outside => ?_⟩
      · by_cases first : index = i
        · subst first
          constructor
          · rw [show 2 * index + 2 = 2 * (index + 1) from by omega,
              keeps _ (.inl (by omega)), write_one, if_neg (by omega),
              write_one, if_pos rfl]
          · rw [show 2 * index + 2 = 2 * (index + 1) from by omega,
              keeps _ (.inl (by omega)), write_one, if_pos rfl]
        · exact spells index (by omega) (by omega)
      · rw [show 2 * i + 2 = 2 * (i + 1) from by omega,
          keeps address (by omega), write_one, if_neg (by omega), write_one,
          if_neg (by omega)]

/-- The first conversion spells its bytes in twice as many characters. -/
theorem liteHexbufConvert_spells (digest out : Memory) (length : Nat)
    (uppercase : Bool) :
    (∀ index < length,
      Spells (liteHexbufConvert digest out length uppercase) digest uppercase
        index) ∧
    ∀ address, 2 * length ≤ address →
      liteHexbufConvert digest out length uppercase address = out address := by
  obtain ⟨spells, keeps⟩ :=
    hexbufLoop_spells digest uppercase length 0 out
  constructor
  · exact fun index small => spells index (Nat.zero_le _) (by omega)
  · exact fun address behind => keeps address (.inr (by omega))

/-- The digits of some bytes. -/
def spelled (uppercase : Bool) (bytes : List UInt8) : List UInt8 :=
  bytes.flatMap fun (byte : UInt8) =>
    [digit uppercase ((byte >>> 4) &&& 0xf), digit uppercase (byte &&& 0xf)]

theorem length_spelled (uppercase : Bool) (bytes : List UInt8) :
    (spelled uppercase bytes).length = 2 * bytes.length := by
  induction bytes with
  | nil => rfl
  | cons byte bytes inductionHypothesis =>
      change (spelled uppercase bytes).length + 2 = 2 * (bytes.length + 1)
      omega

/-- Bytes are told apart by their digits. -/
theorem spelled_inj {uppercase : Bool} {first second : List UInt8}
    (same : spelled uppercase first = spelled uppercase second) :
    first = second := by
  have halves (byte : UInt8) :
      hexvalOfChar (digit uppercase ((byte >>> 4) &&& 0xf)) <<< 4 |||
        hexvalOfChar (digit uppercase (byte &&& 0xf)) = byte := by
    rw [hexvalOfChar_digit _ (half_small _),
      hexvalOfChar_digit _ (half_small _)]
    exact byte_of_halves byte
  induction first generalizing second with
  | nil =>
      have lengths := congrArg List.length same
      rw [length_spelled, length_spelled, List.length_nil] at lengths
      exact (List.eq_nil_of_length_eq_zero (by omega)).symm
  | cons byte first inductionHypothesis =>
      cases second with
      | nil =>
          have lengths := congrArg List.length same
          rw [length_spelled, length_spelled] at lengths
          simp at lengths
      | cons other second =>
          obtain ⟨high, rest⟩ := List.cons.inj same
          obtain ⟨low, rest⟩ := List.cons.inj rest
          rw [inductionHypothesis rest, ← halves byte, high, low, halves]

/-- A text that has the digits of so many bytes spells them. -/
theorem slice_of_spells {text digest : Memory} {uppercase : Bool}
    (start : Nat) {length : Nat}
    (spells : ∀ index, start ≤ index → index < start + length →
      Spells text digest uppercase index) :
    text.slice (2 * start) (2 * length) =
      spelled uppercase (digest.slice start length) := by
  induction length generalizing start with
  | zero => rfl
  | succ length inductionHypothesis =>
      have first := spells start (Nat.le_refl _) (by omega)
      have rest := inductionHypothesis (start + 1)
        fun index low high => spells index (by omega) (by omega)
      have two : 2 * (length + 1) = 2 * length + 1 + 1 := by omega
      have next : 2 * start + 1 + 1 = 2 * (start + 1) := by omega
      rw [two, Memory.slice_succ, Memory.slice_succ, Memory.slice_succ, next,
        rest, first.1, first.2]
      rfl

/-- The first conversion spells the bytes it reads. -/
theorem liteHexbufConvert_slice (digest out : Memory) (length : Nat)
    (uppercase : Bool) :
    (liteHexbufConvert digest out length uppercase).slice 0 (2 * length) =
      spelled uppercase (digest.slice 0 length) :=
  slice_of_spells 0 fun index _ small =>
    (liteHexbufConvert_spells digest out length uppercase).1 index (by omega)

/-! ## Reading a text of digits -/

/-- What the loop of the second conversion reads and writes. -/
theorem hexstrLoop_touches (hexstr : Memory) (turns i : Nat)
    (done : Converted) :
    (hexstrLoop hexstr turns i done).reads =
        done.reads ++ List.range' (2 * i) (2 * turns) ∧
      (hexstrLoop hexstr turns i done).writes =
        done.writes ++ List.range' i turns := by
  induction turns generalizing i done with
  | zero => simp [hexstrLoop]
  | succ turns inductionHypothesis =>
      rw [hexstrLoop]
      obtain ⟨reads, writes⟩ := inductionHypothesis (i + 1) _
      rw [reads, writes]
      constructor
      · rw [List.append_assoc, show 2 * (turns + 1) = 2 * turns + 1 + 1
          from by omega, List.range'_succ, List.range'_succ]
        rfl
      · rw [List.append_assoc, List.range'_succ]
        rfl

/-- The byte that two characters are converted to. -/
def byteAt (hexstr : Memory) (index : Nat) : UInt8 :=
  hexvalOfChar (hexstr (2 * index)) <<< 4 |||
    hexvalOfChar (hexstr (2 * index + 1))

/-- What the loop of the second conversion leaves in its buffer. -/
theorem hexstrLoop_outBuf (hexstr : Memory) (turns i : Nat) (done : Converted)
    (address : Nat) :
    (hexstrLoop hexstr turns i done).outBuf address =
      if i ≤ address ∧ address < i + turns then byteAt hexstr address
      else done.outBuf address := by
  induction turns generalizing i done with
  | zero =>
      rw [if_neg (by omega)]
      rfl
  | succ turns inductionHypothesis =>
      rw [hexstrLoop, inductionHypothesis]
      dsimp only
      rw [write_one]
      by_cases first : address = i
      · subst first
        rw [if_neg (by omega), if_pos rfl, if_pos (by omega)]
        rfl
      · rw [if_neg first]
        by_cases inside : i + 1 ≤ address ∧ address < i + 1 + turns
        · rw [if_pos inside, if_pos (by omega)]
        · rw [if_neg inside, if_neg (by omega)]

/-- An even length is the number of bytes that are written. -/
theorem liteHexstrConvert_even (hexstr outBuf : Memory) {length : Nat}
    (even : length % 2 = 0) :
    liteHexstrConvert hexstr outBuf length =
      hexstrLoop hexstr length 0 ⟨outBuf, [], []⟩ := by
  unfold liteHexstrConvert
  rw [if_neg]
  · rfl
  · rw [not_not, Int.tmod_eq_emod_of_nonneg (Int.natCast_nonneg length)]
    omega

/-- Two characters that spell a byte are converted to it. -/
theorem Spells.byteAt {text digest : Memory} {uppercase : Bool} {index : Nat}
    (spells : Spells text digest uppercase index) :
    byteAt text index = digest index := by
  unfold Hex.byteAt
  rw [spells.1, spells.2, hexvalOfChar_digit _ (half_small _),
    hexvalOfChar_digit _ (half_small _)]
  exact byte_of_halves _

/-- The second conversion read the digits of the bytes only, and has written
the bytes and nothing else. -/
structure Restores (digest outBuf : Memory) (length : Nat)
    (converted : Converted) : Prop where
  reads : ∀ index ∈ converted.reads, index < 2 * length
  writes : converted.writes = List.range length
  bytes : ∀ index < length, converted.outBuf index = digest index
  rest : ∀ index, length ≤ index → converted.outBuf index = outBuf index

/-- With the number of bytes as its length the second conversion undoes the
first one, if that number is even. -/
theorem restores_of_even (digest out outBuf : Memory) (uppercase : Bool)
    {length : Nat} (even : length % 2 = 0) :
    Restores digest outBuf length
      (liteHexstrConvert (liteHexbufConvert digest out length uppercase) outBuf
        length) := by
  obtain ⟨spells, -⟩ := liteHexbufConvert_spells digest out length uppercase
  rw [liteHexstrConvert_even _ _ even]
  obtain ⟨reads, writes⟩ := hexstrLoop_touches
    (liteHexbufConvert digest out length uppercase) length 0 ⟨outBuf, [], []⟩
  constructor
  · intro index mem
    rw [reads] at mem
    have range := List.mem_range'_1.mp mem
    omega
  · rw [writes, List.range_eq_range']
    rfl
  · intro index small
    rw [hexstrLoop_outBuf, if_pos (by omega)]
    exact (spells index small).byteAt
  · intro index behind
    rw [hexstrLoop_outBuf, if_neg (by omega)]

/-- With the length of the text, which its check asks for, the second conversion
undoes the first one for the empty string only: it reads and writes twice as
much. -/
theorem hexRoundTrip_iff (digest out outBuf : Memory) (uppercase : Bool)
    (length : Nat) :
    Restores digest outBuf length
        (liteHexstrConvert (liteHexbufConvert digest out length uppercase)
          outBuf (2 * length : Nat)) ↔
      length = 0 := by
  constructor
  · intro restores
    have writes := restores.writes
    rw [liteHexstrConvert_even _ _ (by omega)] at writes
    have count := congrArg List.length ((hexstrLoop_touches _ (2 * length) 0
      ⟨outBuf, [], []⟩).2.symm.trans writes)
    simp only [List.nil_append, List.length_range', List.length_range] at count
    omega
  · rintro rfl
    exact restores_of_even digest out outBuf uppercase rfl

/-- The bytes are at the beginning of what is written even so. -/
theorem restores_front (digest out outBuf : Memory) (uppercase : Bool)
    (length : Nat) {index : Nat} (small : index < length) :
    (liteHexstrConvert (liteHexbufConvert digest out length uppercase) outBuf
      (2 * length : Nat)).outBuf index = digest index := by
  rw [liteHexstrConvert_even _ _ (by omega), hexstrLoop_outBuf,
    if_pos (by omega)]
  exact ((liteHexbufConvert_spells digest out length uppercase).1 index
    small).byteAt

/-- The round trip of one byte reads four characters. -/
theorem oneByte_overrun :
    ¬ ∀ (digest out outBuf : Memory) (uppercase : Bool) (length : Nat),
      2 * length < 2 ^ 31 →
        Restores digest outBuf length
          (liteHexstrConvert (liteHexbufConvert digest out length uppercase)
            outBuf (2 * length : Nat)) := by
  intro restores
  have overrun := (restores (fun _ => 0xab) (fun _ => 0) (fun _ => 0) false 1
    (by decide)).reads 3 (by decide)
  exact absurd overrun (by decide)

end Hex
end UIoT
