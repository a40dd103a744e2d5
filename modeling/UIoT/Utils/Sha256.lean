import UIoT.Utils.Md5

/-!
# SHA-256

`utils_sha2.c`: the context of a running digest, its update with a piece of the
data and its end.  The digests of `utils_md5.c` and `utils_sha2.c` depend on
the data alone and not on the pieces they come in.
-/

namespace UIoT
namespace Sha256

/-- The eight words a digest is made of. -/
structure Words where
  a : UInt32
  b : UInt32
  c : UInt32
  d : UInt32
  e : UInt32
  f : UInt32
  g : UInt32
  h : UInt32
  deriving DecidableEq

/-- `iot_sha256_context` -/
structure Context extends StreamingHash.Context Words where
  is224 : Int32

/-! ## Compression -/

/-- `GET_UINT32_BE` -/
def getUint32Be (data : List UInt8) (index : Nat) : UInt32 :=
  (data.getD index 0).toUInt32 <<< 24 |||
    (data.getD (index + 1) 0).toUInt32 <<< 16 |||
    (data.getD (index + 2) 0).toUInt32 <<< 8 |||
    (data.getD (index + 3) 0).toUInt32

/-- `PUT_UINT32_BE` -/
def putUint32Be (value : UInt32) : List UInt8 :=
  [(value >>> 24).toUInt8, (value >>> 16).toUInt8, (value >>> 8).toUInt8,
    value.toUInt8]

/-- `K` -/
def K : List UInt32 :=
  [0x428A2F98, 0x71374491, 0xB5C0FBCF, 0xE9B5DBA5,
    0x3956C25B, 0x59F111F1, 0x923F82A4, 0xAB1C5ED5,
    0xD807AA98, 0x12835B01, 0x243185BE, 0x550C7DC3,
    0x72BE5D74, 0x80DEB1FE, 0x9BDC06A7, 0xC19BF174,
    0xE49B69C1, 0xEFBE4786, 0x0FC19DC6, 0x240CA1CC,
    0x2DE92C6F, 0x4A7484AA, 0x5CB0A9DC, 0x76F988DA,
    0x983E5152, 0xA831C66D, 0xB00327C8, 0xBF597FC7,
    0xC6E00BF3, 0xD5A79147, 0x06CA6351, 0x14292967,
    0x27B70A85, 0x2E1B2138, 0x4D2C6DFC, 0x53380D13,
    0x650A7354, 0x766A0ABB, 0x81C2C92E, 0x92722C85,
    0xA2BFE8A1, 0xA81A664B, 0xC24B8B70, 0xC76C51A3,
    0xD192E819, 0xD6990624, 0xF40E3585, 0x106AA070,
    0x19A4C116, 0x1E376C08, 0x2748774C, 0x34B0BCB5,
    0x391C0CB3, 0x4ED8AA4A, 0x5B9CCA4F, 0x682E6FF3,
    0x748F82EE, 0x78A5636F, 0x84C87814, 0x8CC70208,
    0x90BEFFFA, 0xA4506CEB, 0xBEF9A3F7, 0xC67178F2]

/-- `SHR` -/
def shr (x n : UInt32) : UInt32 := x >>> n

/-- `ROTR` -/
def rotr (x n : UInt32) : UInt32 := shr x n ||| x <<< (32 - n)

/-- `S0` -/
def s0 (x : UInt32) : UInt32 := rotr x 7 ^^^ rotr x 18 ^^^ shr x 3

/-- `S1` -/
def s1 (x : UInt32) : UInt32 := rotr x 17 ^^^ rotr x 19 ^^^ shr x 10

/-- `S2` -/
def s2 (x : UInt32) : UInt32 := rotr x 2 ^^^ rotr x 13 ^^^ rotr x 22

/-- `S3` -/
def s3 (x : UInt32) : UInt32 := rotr x 6 ^^^ rotr x 11 ^^^ rotr x 25

/-- `F0` -/
def f0 (x y z : UInt32) : UInt32 := (x &&& y) ||| (z &&& (x ||| y))

/-- `F1` -/
def f1 (x y z : UInt32) : UInt32 := z ^^^ (x &&& (y ^^^ z))

/-- `W[t]`: a word of the block, and from the sixteenth on `R(t)`. -/
def scheduleWord (data : List UInt8) (w : List UInt32) (t : Nat) : UInt32 :=
  if t < 16 then getUint32Be data (4 * t)
  else s1 (w.getD (t - 2) 0) + w.getD (t - 7) 0 + s0 (w.getD (t - 15) 0) +
    w.getD (t - 16) 0

/-- `P` and the words changing their places behind it. -/
def mix (words : Words) (x k : UInt32) : Words :=
  let temp1 := words.h + s3 words.e + f1 words.e words.f words.g + k + x
  let temp2 := s2 words.a + f0 words.a words.b words.c
  ⟨temp1 + temp2, words.a, words.b, words.c, words.d + temp1, words.e, words.f,
    words.g⟩

/-- One turn of the loop of `utils_sha256_process`. -/
def turn (data : List UInt8) (loop : List UInt32 × Words) (t : Nat) :
    List UInt32 × Words :=
  let (w, words) := loop
  let word := scheduleWord data w t
  (w ++ [word], mix words word (K.getD t 0))

/-- `utils_sha256_process` on the state of a context. -/
def utilsSha256Process (state : Words) (data : List UInt8) : Words :=
  let words := ((List.range 64).foldl (turn data) ([], state)).2
  ⟨state.a + words.a, state.b + words.b, state.c + words.c,
    state.d + words.d, state.e + words.e, state.f + words.f,
    state.g + words.g, state.h + words.h⟩

/-! ## The running digest -/

/-- The words a digest starts from. -/
def initialWords : Words :=
  ⟨0x6A09E667, 0xBB67AE85, 0x3C6EF372, 0xA54FF53A, 0x510E527F, 0x9B05688C,
    0x1F83D9AB, 0x5BE0CD19⟩

/-- `utils_sha256_init` -/
def utilsSha256Init : Context :=
  { total0 := 0, total1 := 0, state := ⟨0, 0, 0, 0, 0, 0, 0, 0⟩,
    buffer := fun _ => 0, is224 := 0 }

/-- `utils_sha256_starts` -/
def utilsSha256Starts (ctx : Context) : Context :=
  { StreamingHash.startsOn initialWords ctx.toContext with is224 := 0 }

/-- `utils_sha256_update` -/
def utilsSha256Update (ctx : Context) (input : List UInt8) : Context :=
  { StreamingHash.update utilsSha256Process ctx.toContext input with
    is224 := ctx.is224 }

/-- How `utils_sha256_finish` writes the length. -/
def msglen (low high : UInt32) : List UInt8 :=
  putUint32Be high ++ putUint32Be low

/-- The bytes of the words of a digest, the last word only in SHA-256. -/
def output (state : Words) (is224 : Int32) : List UInt8 :=
  putUint32Be state.a ++ putUint32Be state.b ++ putUint32Be state.c ++
    putUint32Be state.d ++ putUint32Be state.e ++ putUint32Be state.f ++
    putUint32Be state.g ++ if is224 = 0 then putUint32Be state.h else []

/-- `utils_sha256_finish`: the digest and the context after it. -/
def utilsSha256Finish (ctx : Context) : List UInt8 × Context :=
  let context :=
    StreamingHash.finish utilsSha256Process msglen ctx.toContext
  (output context.state ctx.is224, { context with is224 := ctx.is224 })

/-- `utils_sha256` -/
def utilsSha256 (input : List UInt8) : List UInt8 :=
  let ctx := utilsSha256Starts utilsSha256Init
  (utilsSha256Finish (utilsSha256Update ctx input)).1

/-! ## The digest of data -/

/-- The SHA-256 digest of a message: the compression folded over the standard
padding. -/
def digest (message : List UInt8) : List UInt8 :=
  output (BlockHash.absorbed utilsSha256Process 64 initialWords
    (StreamingHash.standardPadded StreamingHash.bigEndian message)) 0

/-- `utils_sha256_finish` writes the length with its high byte first. -/
theorem msglen_eq_bigEndian (number : Nat) :
    msglen (UInt32.ofNat number) (UInt32.ofNat (number / 2 ^ 32)) =
      StreamingHash.bigEndian number := by
  rw [StreamingHash.bigEndian, StreamingHash.littleEndian_eq,
    ← StreamingHash.low_bytes, ← StreamingHash.low_bytes]
  rfl

/-- Updates are those of the context within and leave the kind of digest. -/
theorem foldl_utilsSha256Update (pieces : List (List UInt8)) (ctx : Context) :
    pieces.foldl utilsSha256Update ctx =
      { pieces.foldl (StreamingHash.update utilsSha256Process)
          ctx.toContext with is224 := ctx.is224 } := by
  induction pieces generalizing ctx with
  | nil => rfl
  | cons piece pieces inductionHypothesis =>
      rw [List.foldl_cons, inductionHypothesis]
      rfl

/-- The pieces of a string give its digest. -/
theorem utilsSha256Finish_pieces (ctx : Context) (pieces : List (List UInt8))
    (small : ∀ piece ∈ pieces, piece.length < 2 ^ 32) :
    (utilsSha256Finish
        (pieces.foldl utilsSha256Update (utilsSha256Starts ctx))).1 =
      digest pieces.flatten := by
  have fed := (StreamingHash.startsOn_fed utilsSha256Process initialWords
    ctx.toContext).foldl small
  have short : ∀ low high, (msglen low high).length < 2 ^ 32 :=
    fun _ _ => (by decide : 8 < 2 ^ 32)
  have state := fed.finish short
  rw [StreamingHash.padded_eq_standardPadded msglen_eq_bigEndian,
    List.nil_append] at state
  rw [foldl_utilsSha256Update, digest, ← state]
  rfl

end Sha256

namespace Md5

/-- The pieces of a string give its digest. -/
theorem utilsMd5Finish_pieces (ctx : Context) (pieces : List (List UInt8))
    (small : ∀ piece ∈ pieces, piece.length < 2 ^ 32) :
    (utilsMd5Finish
        (pieces.foldl utilsMd5Update (utilsMd5StartsOn ctx))).1 =
      standardDigest pieces.flatten := by
  have fed := (StreamingHash.startsOn_fed utilsMd5Process initialWords
    ctx).foldl small
  have state := fed.finish length_msglen
  rw [List.nil_append] at state
  rw [← digest_eq_standardDigest, digest, ← state]
  rfl

end Md5

/-! ## Both digests -/

/-- MD5 and SHA-256 in pieces are the digests of the whole: from any context,
over any splitting, the compression is folded over the blocks of the padded
string, all of which are whole. -/
theorem digestsWhole :
    (StreamingHash.DigestsWhole Md5.utilsMd5StartsOn Md5.utilsMd5Update
        (fun ctx => (Md5.utilsMd5Finish ctx).1) Md5.utilsMd5
        Md5.standardDigest ∧
      ∀ message, BlockHash.leftOver 64
        (StreamingHash.standardPadded StreamingHash.littleEndian message) =
          []) ∧
    (StreamingHash.DigestsWhole Sha256.utilsSha256Starts
        Sha256.utilsSha256Update (fun ctx => (Sha256.utilsSha256Finish ctx).1)
        Sha256.utilsSha256 Sha256.digest ∧
      ∀ message, BlockHash.leftOver 64
        (StreamingHash.standardPadded StreamingHash.bigEndian message) =
          []) := by
  refine ⟨⟨?_, ?_⟩, ?_, ?_⟩
  · exact .of_whole Md5.utilsMd5Finish_pieces Md5.utilsMd5Init fun _ => rfl
  · exact StreamingHash.standardPadded_whole fun _ => rfl
  · exact .of_whole Sha256.utilsSha256Finish_pieces Sha256.utilsSha256Init
      fun _ => rfl
  · exact StreamingHash.standardPadded_whole fun _ => rfl

example : Md5.hex (Sha256.utilsSha256 []) = ascii
    "e3b0c44298fc1c149afbf4c8996fb92427ae41e4649b934ca495991b7852b855" := by
  decide +kernel

end UIoT
