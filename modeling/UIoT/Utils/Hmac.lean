import UIoT.Utils.Hex
import UIoT.Utils.Sha256

/-!
# Keyed digests

`utils_hmac_sha256` of `utils_sha2.c` against the keyed digest it is meant to
be: a key longer than a block is to be replaced by its digest, and the function
returns without an output for such a key.
-/

namespace UIoT
namespace Hmac

open Sha256

/-! ## The keyed digest -/

/-- The key as a block: one that is longer than a block is hashed first, and
zeros fill the block. -/
def blockKey (hash : List UInt8 → List UInt8) (block : Nat)
    (key : List UInt8) : List UInt8 :=
  let key := if key.length ≤ block then key else hash key
  key ++ List.replicate (block - key.length) 0

/-- The keyed digest of a message, for a hash that works on blocks of a size:
the digest of the outer pad and the digest of the inner pad and the message. -/
def hmac (hash : List UInt8 → List UInt8) (block : Nat)
    (key message : List UInt8) : List UInt8 :=
  let key := blockKey hash block key
  hash (key.map (· ^^^ 0x5c) ++ hash (key.map (· ^^^ 0x36) ++ message))

/-! ## The function -/

/-- `SHA256_KEY_IOPAD_SIZE` -/
def sha256KeyIopadSize : Nat := 64

/-- `SHA256_DIGEST_SIZE` -/
def sha256DigestSize : Nat := 32

/-- The loop that makes the pads of the key. -/
def padLoop : (turns i : Nat) → (kIpad kOpad : Memory) → Memory × Memory
  | 0, _, kIpad, kOpad => (kIpad, kOpad)
  | turns + 1, i, kIpad, kOpad =>
      padLoop turns (i + 1) (kIpad.write i [kIpad i ^^^ 0x36])
        (kOpad.write i [kOpad i ^^^ 0x5c])

/-- One of the two passes: what `utils_sha256_finish` writes to the output after
the pad and the data. -/
def pass (pad : Memory) (data : List UInt8) (output : Memory) : Memory :=
  let context := utilsSha256Starts utilsSha256Init
  let context := utilsSha256Update context (pad.slice 0 sha256KeyIopadSize)
  let context := utilsSha256Update context data
  output.write 0 (utilsSha256Finish context).1

/-- `utils_hmac_sha256`: what is in the output afterwards. -/
def utilsHmacSha256 (msg key : Option (List UInt8)) (output : Option Memory) :
    Option Memory :=
  match msg, key, output with
  | some msg, some key, some output =>
      if sha256KeyIopadSize < key.length then some output
      else
        let kIpad := Memory.write (fun _ => 0) 0 key
        let kOpad := Memory.write (fun _ => 0) 0 key
        let (kIpad, kOpad) := padLoop sha256KeyIopadSize 0 kIpad kOpad
        let output := pass kIpad msg output
        some (pass kOpad (output.slice 0 sha256DigestSize) output)
  | _, _, output => output

/-! ## The pads -/

/-- A memory with a mask on so many bytes from an index on. -/
def masked (memory : Memory) (mask : UInt8) (first count : Nat) : Memory :=
  fun address =>
    if first ≤ address ∧ address < first + count then memory address ^^^ mask
    else memory address

theorem masked_zero (memory : Memory) (mask : UInt8) (first : Nat) :
    masked memory mask first 0 = memory := by
  funext address
  have outside : ¬(first ≤ address ∧ address < first + 0) := by omega
  unfold masked
  rw [if_neg outside]

/-- Masking a byte and those behind it. -/
theorem masked_write (memory : Memory) (mask : UInt8) (first count : Nat) :
    masked (memory.write first [memory first ^^^ mask]) mask (first + 1) count =
      masked memory mask first (count + 1) := by
  funext address
  unfold masked
  rw [Hex.write_one]
  by_cases same : address = first
  · subst same
    have after : ¬(address + 1 ≤ address ∧ address < address + 1 + count) := by
      omega
    have inside : address ≤ address ∧ address < address + (count + 1) := by
      omega
    rw [if_neg after, if_pos inside, if_pos rfl]
  · rw [if_neg same]
    have alike : (first + 1 ≤ address ∧ address < first + 1 + count) ↔
        (first ≤ address ∧ address < first + (count + 1)) := by omega
    simp only [alike]

/-- Each byte of the pads gets its mask. -/
theorem padLoop_eq (turns i : Nat) (kIpad kOpad : Memory) :
    padLoop turns i kIpad kOpad =
      (masked kIpad 0x36 i turns, masked kOpad 0x5c i turns) := by
  induction turns generalizing i kIpad kOpad with
  | zero =>
      rw [padLoop, masked_zero, masked_zero]
  | succ turns inductionHypothesis =>
      rw [padLoop, inductionHypothesis, masked_write, masked_write]

/-- A key that fits fills the pad of its mask. -/
theorem slice_masked {key : List UInt8} (fits : key.length ≤ 64)
    (mask : UInt8) :
    (masked (Memory.write (fun _ => 0) 0 key) mask 0 64).slice 0 64 =
      (key ++ List.replicate (64 - key.length) 0).map (· ^^^ mask) := by
  apply List.ext_getElem
  · rw [Memory.length_slice, List.length_map, List.length_append,
      List.length_replicate]
    omega
  · intro index inSlice inKey
    rw [Memory.length_slice] at inSlice
    have inside : 0 ≤ 0 + index ∧ 0 + index < 0 + 64 := by omega
    rw [List.getElem_map, List.getElem_append]
    simp only [Memory.slice, masked, List.getElem_map, List.getElem_range]
    rw [if_pos inside, Nat.zero_add]
    congr 1
    unfold Memory.write
    rw [if_pos (Nat.zero_le _), Nat.sub_zero]
    split
    · rename_i inKey
      rw [List.getElem?_eq_getElem inKey, Option.getD_some]
    · rename_i behind
      rw [List.getElem?_eq_none (Nat.le_of_not_lt behind),
        List.getElem_replicate]
      rfl

/-! ## The passes -/

/-- A digest of this kind has 32 bytes. -/
theorem length_digest (message : List UInt8) :
    (digest message).length = 32 := rfl

/-- A pass writes the digest of the pad and the data. -/
theorem pass_eq (pad : Memory) {data : List UInt8}
    (short : data.length < 2 ^ 32) (output : Memory) :
    pass pad data output =
      output.write 0 (digest (pad.slice 0 64 ++ data)) := by
  have small : ∀ piece ∈ [pad.slice 0 64, data], piece.length < 2 ^ 32 := by
    intro piece mem
    rcases List.mem_pair.mp mem with rfl | rfl
    · rw [Memory.length_slice]
      decide
    · exact short
  have pieces := utilsSha256Finish_pieces utilsSha256Init _ small
  have flat : [pad.slice 0 64, data].flatten = pad.slice 0 64 ++ data := by
    simp
  rw [flat] at pieces
  exact congrArg (output.write 0) pieces

/-- A write over all that was written hides it. -/
theorem write_write {first second : List UInt8} (memory : Memory)
    (same : first.length = second.length) :
    (memory.write 0 first).write 0 second = memory.write 0 second := by
  funext address
  unfold Memory.write
  rw [if_pos (Nat.zero_le _), if_pos (Nat.zero_le _), Nat.sub_zero]
  by_cases inside : address < second.length
  · rw [List.getElem?_eq_getElem inside]
    rfl
  · rw [List.getElem?_eq_none (Nat.le_of_not_lt inside),
      List.getElem?_eq_none (same ▸ Nat.le_of_not_lt inside)]
    rfl

/-- The function writes the keyed digest for every key of up to 64 bytes and
every message; a longer key leaves the output as it was. -/
theorem utilsHmacSha256_eq {msg : List UInt8} (short : msg.length < 2 ^ 32)
    (key : List UInt8) (output : Memory) :
    utilsHmacSha256 (some msg) (some key) (some output) =
      some (if key.length ≤ 64 then output.write 0 (hmac digest 64 key msg)
        else output) := by
  unfold utilsHmacSha256
  dsimp only
  by_cases fits : key.length ≤ 64
  · have notLonger : ¬sha256KeyIopadSize < key.length := Nat.not_lt.mpr fits
    rw [if_neg notLonger, if_pos fits, sha256KeyIopadSize, padLoop_eq]
    dsimp only
    rw [pass_eq _ short, slice_masked fits]
    have inner (message : List UInt8) :
        (output.write 0 (digest message)).slice 0 sha256DigestSize =
          digest message :=
      Memory.slice_write_same output 0 (digest message)
    have innerShort (message : List UInt8) :
        (digest message).length < 2 ^ 32 := by
      rw [length_digest]
      decide
    rw [inner, pass_eq _ (innerShort _), slice_masked fits,
      write_write _ ((length_digest _).trans (length_digest _).symm), hmac,
      blockKey, if_pos fits]
  · have longer : sha256KeyIopadSize < key.length := Nat.lt_of_not_le fits
    rw [if_pos longer, if_neg fits]

/-- The output begins with the keyed digest, and what is behind it is as it
was. -/
structure Authenticates (key msg : List UInt8) (output output' : Memory) :
    Prop where
  digest : output'.slice 0 32 = hmac digest 64 key msg
  behind : ∀ address, 32 ≤ address → output' address = output address

/-- The output gets the keyed digest of the message exactly if the key is no
longer than a block, or if the digest was there already. -/
theorem utilsHmacSha256_authenticates_iff {msg : List UInt8}
    (short : msg.length < 2 ^ 32) (key : List UInt8) (output : Memory) :
    (∃ output', utilsHmacSha256 (some msg) (some key) (some output) =
        some output' ∧ Authenticates key msg output output') ↔
      key.length ≤ 64 ∨ output.slice 0 32 = hmac digest 64 key msg := by
  rw [utilsHmacSha256_eq short]
  have thirtyTwo : (hmac digest 64 key msg).length = 32 := length_digest _
  have written : Authenticates key msg output
      (output.write 0 (hmac digest 64 key msg)) := by
    constructor
    · have slice := Memory.slice_write_same output 0 (hmac digest 64 key msg)
      rwa [thirtyTwo] at slice
    · intro address behind
      unfold Memory.write
      rw [if_pos (Nat.zero_le _), Nat.sub_zero,
        List.getElem?_eq_none (thirtyTwo ▸ behind)]
      rfl
  constructor
  · rintro ⟨output', result, authenticates⟩
    by_cases fits : key.length ≤ 64
    · exact .inl fits
    · rw [if_neg fits] at result
      obtain rfl := Option.some.inj result
      exact .inr authenticates.digest
  · rintro (fits | already)
    · exact ⟨_, by rw [if_pos fits], written⟩
    · by_cases fits : key.length ≤ 64
      · exact ⟨_, by rw [if_pos fits], written⟩
      · exact ⟨output, by rw [if_neg fits], already, fun _ _ => rfl⟩

/-- A key of four bytes. -/
theorem utilsHmacSha256_authenticates_jefe :
    ∃ output', utilsHmacSha256 (some (ascii "what do ya want for nothing?"))
        (some (ascii "Jefe")) (some fun _ => 0) = some output' ∧
      Authenticates (ascii "Jefe") (ascii "what do ya want for nothing?")
        (fun _ => 0) output' :=
  (utilsHmacSha256_authenticates_iff (by decide) _ _).mpr (.inl (by decide))

example : Md5.hex (hmac digest 64 (ascii "Jefe")
    (ascii "what do ya want for nothing?")) = ascii
    "5bdcc146bf60754e6a042426089575c75a003f089d2739839dec58b964ec3843" := by
  decide +kernel

end Hmac
end UIoT
