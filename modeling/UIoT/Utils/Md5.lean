import UIoT.Defs
import UIoT.Utils.StreamingHash

/-!
# MD5

`utils_md5.c`: the context of a running digest, its update with a piece of the
data and its end, which pads the data in the same context.
-/

namespace UIoT
namespace Md5

/-- The four words a digest is made of. -/
structure Words where
  a : UInt32
  b : UInt32
  c : UInt32
  d : UInt32
  deriving DecidableEq

/-- `iot_md5_context` -/
abbrev Context := StreamingHash.Context Words

/-! ## Compression -/

/-- `IOT_MD5_GET_UINT32_LE` -/
def getUint32Le (data : List UInt8) (index : Nat) : UInt32 :=
  (data.getD index 0).toUInt32 |||
    (data.getD (index + 1) 0).toUInt32 <<< 8 |||
    (data.getD (index + 2) 0).toUInt32 <<< 16 |||
    (data.getD (index + 3) 0).toUInt32 <<< 24

/-- `IOT_MD5_PUT_UINT32_LE` -/
def putUint32Le (value : UInt32) : List UInt8 :=
  [value.toUInt8, (value >>> 8).toUInt8, (value >>> 16).toUInt8,
    (value >>> 24).toUInt8]

/-- `S`: rotation to the left. -/
def rotate (value count : UInt32) : UInt32 :=
  value <<< count ||| value >>> (32 - count)

/-- `P` with its function `F`.  The words change their places, so that the next
step is again one on the first of them. -/
def mix (f : UInt32 → UInt32 → UInt32 → UInt32) (data : List UInt8)
    (words : Words) (row : Nat × UInt32 × UInt32) : Words :=
  let (k, s, t) := row
  let sum := words.a + (f words.b words.c words.d +
    getUint32Le data (4 * k) + t)
  ⟨words.d, rotate sum s + words.b, words.b, words.c⟩

/-- The steps of the first round. -/
def firstRound : List (Nat × UInt32 × UInt32) :=
  [(0, 7, 0xD76AA478), (1, 12, 0xE8C7B756), (2, 17, 0x242070DB),
    (3, 22, 0xC1BDCEEE), (4, 7, 0xF57C0FAF), (5, 12, 0x4787C62A),
    (6, 17, 0xA8304613), (7, 22, 0xFD469501), (8, 7, 0x698098D8),
    (9, 12, 0x8B44F7AF), (10, 17, 0xFFFF5BB1), (11, 22, 0x895CD7BE),
    (12, 7, 0x6B901122), (13, 12, 0xFD987193), (14, 17, 0xA679438E),
    (15, 22, 0x49B40821)]

/-- The steps of the second round. -/
def secondRound : List (Nat × UInt32 × UInt32) :=
  [(1, 5, 0xF61E2562), (6, 9, 0xC040B340), (11, 14, 0x265E5A51),
    (0, 20, 0xE9B6C7AA), (5, 5, 0xD62F105D), (10, 9, 0x02441453),
    (15, 14, 0xD8A1E681), (4, 20, 0xE7D3FBC8), (9, 5, 0x21E1CDE6),
    (14, 9, 0xC33707D6), (3, 14, 0xF4D50D87), (8, 20, 0x455A14ED),
    (13, 5, 0xA9E3E905), (2, 9, 0xFCEFA3F8), (7, 14, 0x676F02D9),
    (12, 20, 0x8D2A4C8A)]

/-- The steps of the third round. -/
def thirdRound : List (Nat × UInt32 × UInt32) :=
  [(5, 4, 0xFFFA3942), (8, 11, 0x8771F681), (11, 16, 0x6D9D6122),
    (14, 23, 0xFDE5380C), (1, 4, 0xA4BEEA44), (4, 11, 0x4BDECFA9),
    (7, 16, 0xF6BB4B60), (10, 23, 0xBEBFBC70), (13, 4, 0x289B7EC6),
    (0, 11, 0xEAA127FA), (3, 16, 0xD4EF3085), (6, 23, 0x04881D05),
    (9, 4, 0xD9D4D039), (12, 11, 0xE6DB99E5), (15, 16, 0x1FA27CF8),
    (2, 23, 0xC4AC5665)]

/-- The steps of the fourth round. -/
def fourthRound : List (Nat × UInt32 × UInt32) :=
  [(0, 6, 0xF4292244), (7, 10, 0x432AFF97), (14, 15, 0xAB9423A7),
    (5, 21, 0xFC93A039), (12, 6, 0x655B59C3), (3, 10, 0x8F0CCC92),
    (10, 15, 0xFFEFF47D), (1, 21, 0x85845DD1), (8, 6, 0x6FA87E4F),
    (15, 10, 0xFE2CE6E0), (6, 15, 0xA3014314), (13, 21, 0x4E0811A1),
    (4, 6, 0xF7537E82), (11, 10, 0xBD3AF235), (2, 15, 0x2AD7D2BB),
    (9, 21, 0xEB86D391)]

/-- `utils_md5_process` on the state of a context. -/
def utilsMd5Process (state : Words) (data : List UInt8) : Words :=
  let words := firstRound.foldl
    (mix (fun x y z => z ^^^ (x &&& (y ^^^ z))) data) state
  let words := secondRound.foldl
    (mix (fun x y z => y ^^^ (z &&& (x ^^^ y))) data) words
  let words := thirdRound.foldl (mix (fun x y z => x ^^^ y ^^^ z) data) words
  let words := fourthRound.foldl
    (mix (fun x y z => y ^^^ (x ||| ~~~z)) data) words
  ⟨state.a + words.a, state.b + words.b, state.c + words.c,
    state.d + words.d⟩

/-! ## The running digest -/

/-- The words a digest starts from. -/
def initialWords : Words :=
  ⟨0x67452301, 0xEFCDAB89, 0x98BADCFE, 0x10325476⟩

/-- `utils_md5_init` and `utils_md5_starts` -/
def utilsMd5Starts : Context := StreamingHash.starts initialWords

/-- `utils_md5_init` -/
def utilsMd5Init : Context := ⟨0, 0, ⟨0, 0, 0, 0⟩, fun _ => 0⟩

/-- `utils_md5_starts` on what the context held before. -/
def utilsMd5StartsOn (ctx : Context) : Context :=
  StreamingHash.startsOn initialWords ctx

/-- `utils_md5_update` -/
def utilsMd5Update (ctx : Context) (input : List UInt8) : Context :=
  StreamingHash.update utilsMd5Process ctx input

/-- How `utils_md5_finish` writes the length. -/
def msglen (low high : UInt32) : List UInt8 :=
  putUint32Le low ++ putUint32Le high

/-- The bytes of the words of a digest. -/
def output (state : Words) : List UInt8 :=
  putUint32Le state.a ++ putUint32Le state.b ++ putUint32Le state.c ++
    putUint32Le state.d

/-- `utils_md5_finish`: the digest and the context after it. -/
def utilsMd5Finish (ctx : Context) : List UInt8 × Context :=
  let ctx := StreamingHash.finish utilsMd5Process msglen ctx
  (output ctx.state, ctx)

/-- `utils_md5` -/
def utilsMd5 (input : List UInt8) : List UInt8 :=
  let ctx := utilsMd5StartsOn utilsMd5Init
  (utilsMd5Finish (utilsMd5Update ctx input)).1

/-- `utils_hb2hex` -/
def utilsHb2hex (hb : UInt8) : UInt8 :=
  let hb := hb &&& 0xF
  if hb < 10 then 48 + hb else hb - 10 + 97

/-- The text of a digest. -/
def hex (digest : List UInt8) : List UInt8 :=
  digest.flatMap fun (byte : UInt8) =>
    [utilsHb2hex (byte >>> 4), utilsHb2hex byte]

/-- `utils_md5_finish_hb2hex` -/
def utilsMd5FinishHb2hex (ctx : Context) : List UInt8 × Context :=
  let (output, ctx) := utilsMd5Finish ctx
  (hex output, ctx)

/-! ## The digest of data -/

/-- A context has been fed the data. -/
abbrev Fed (ctx : Context) (data : List UInt8) : Prop :=
  StreamingHash.Fed utilsMd5Process initialWords ctx data

/-- The MD5 digest of data: the compression folded over the padded data. -/
def digest (data : List UInt8) : List UInt8 :=
  output (BlockHash.absorbed utilsMd5Process 64 initialWords
    (StreamingHash.padded msglen data))

/-- The MD5 digest of a message: the compression folded over the standard
padding. -/
def standardDigest (message : List UInt8) : List UInt8 :=
  output (BlockHash.absorbed utilsMd5Process 64 initialWords
    (StreamingHash.standardPadded StreamingHash.littleEndian message))

/-- The digest of data in lower-case hex. -/
def md5Hex (data : List UInt8) : List UInt8 := hex (digest data)

theorem length_msglen (low high : UInt32) :
    (msglen low high).length < 2 ^ 32 :=
  (by decide : 8 < 2 ^ 32)

/-- The end of a digest gives the MD5 of the data fed, however they came. -/
theorem utilsMd5FinishHb2hex_eq {ctx : Context} {data : List UInt8}
    (fed : Fed ctx data) : (utilsMd5FinishHb2hex ctx).1 = md5Hex data := by
  have state := StreamingHash.Fed.finish fed length_msglen
  change hex (output (StreamingHash.finish utilsMd5Process msglen ctx).state) =
    md5Hex data
  rw [state]
  rfl

/-- The context has then been fed the data with their padding. -/
theorem utilsMd5FinishHb2hex_fed {ctx : Context} {data : List UInt8}
    (fed : Fed ctx data) :
    Fed (utilsMd5FinishHb2hex ctx).2 (StreamingHash.padded msglen data) :=
  StreamingHash.Fed.finish_fed fed length_msglen

/-- `utils_md5_finish` writes the length with its low byte first. -/
theorem msglen_eq_littleEndian (number : Nat) :
    msglen (UInt32.ofNat number) (UInt32.ofNat (number / 2 ^ 32)) =
      StreamingHash.littleEndian number := by
  rw [StreamingHash.littleEndian_eq, ← StreamingHash.low_bytes,
    ← StreamingHash.low_bytes]
  rfl

/-- What `utils_md5_finish` feeds is the standard padding. -/
theorem digest_eq_standardDigest (data : List UInt8) :
    digest data = standardDigest data := by
  rw [digest, StreamingHash.padded_eq_standardPadded msglen_eq_littleEndian,
    standardDigest]

example : md5Hex [] = ascii "d41d8cd98f00b204e9800998ecf8427e" := by
  decide +kernel

end Md5
end UIoT
