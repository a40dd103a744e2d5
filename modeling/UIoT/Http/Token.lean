import UIoT.Http.Post
import UIoT.Utils.Hmac

/-!
# Requests for a token

What `IOT_HTTP_Get_Token` posts: the serial numbers of the device, with a keyed
digest of what is posted in the header.  The digest is an array of zeros where
the key of the device is longer than a block.
-/

namespace UIoT
namespace Http

open Hex Hmac
open Shadow (halSnprintf)
open DecimalDigits

/-! ## The request -/

/-- What `HAL_Snprintf` leaves in an array of a size. -/
def printedInto (size : Nat) (formatted : List UInt8) : CString :=
  CString.ofArray (halSnprintf [] 0 size formatted).1

/-- The size of the arrays for the data, the header and the response. -/
def httpBufSize : Nat := 1024

/-- `UIOT_AUTH_URL` -/
def uiotAuthUrl : CString :=
  ⟨ascii "https://http-cn-sh2.iot.ucloud.cn/auth", by decide⟩

/-- The serial numbers as they are posted. -/
def identityText (productSn deviceSn : CString) : List UInt8 :=
  ascii "\x7b\"ProductSN\":\"" ++ productSn.bytes ++
    ascii "\",\"DeviceSN\":\"" ++ deviceSn.bytes ++ ascii "\"\x7d"

/-- `mac_output_char`, the digits of `mac_output_hex`.  Both arrays are zero
before. -/
def macOutputChar (postBuf deviceSecret : CString) : CString :=
  let macOutputHex := utilsHmacSha256 (some postBuf.bytes)
    (some deviceSecret.bytes) (some fun _ => 0)
  let digest := macOutputHex.getD fun _ => 0
  .ofArray ((liteHexbufConvert digest (fun _ => 0) 32 false).slice 0 65)

/-- The header of the request around the digest and the data. -/
def tokenHeader (mac postBuf : List UInt8) : List UInt8 :=
  ascii "Content-Type: application/json\r\nAuthorization: " ++ mac ++
    ascii "\r\nbody: " ++ postBuf ++ ascii "\r\n"

/-- The content type of what is sent as JSON. -/
def applicationJson : CString := ⟨ascii "application/json", by decide⟩

/-- The client and its data around the digest and what is posted. -/
def authPost (mac postBuf : CString) : HttpPost where
  url := uiotAuthUrl
  method := .httpPost
  header := some (printedInto httpBufSize (tokenHeader mac.bytes postBuf.bytes))
  postBuf := some postBuf.bytes
  postBufLen := Int32.ofNat postBuf.bytes.length
  postContentType := some applicationJson

/-- What `IOT_HTTP_Get_Token` gives to `http_client_common`. -/
def tokenPost (productSn deviceSn deviceSecret : CString) : HttpPost :=
  let postBuf := printedInto httpBufSize (identityText productSn deviceSn)
  authPost (macOutputChar postBuf deviceSecret) postBuf

/-! ## The request as it is meant -/

/-- The digest of the data under the key of the device, in hexadecimal. -/
def authorization (deviceSecret data : List UInt8) : List UInt8 :=
  spelled false (hmac Sha256.digest 64 deviceSecret data)

/-- The lines of a request for a token around a header, up to the data. -/
def authLines (header data : List UInt8) : List UInt8 :=
  ascii "POST /auth HTTP/1.1\r\nHost: http-cn-sh2.iot.ucloud.cn\r\n" ++
    header ++ ascii "Content-Length: " ++ digits data.length ++
    ascii "\r\nContent-Type: application/json\r\n\r\n"

/-- The lines of the request of a device, whose header has the digest of the
data. -/
def tokenLines (deviceSecret data : List UInt8) : List UInt8 :=
  authLines (tokenHeader (authorization deviceSecret data) data) data

/-- Wherever an attempt to connect is answered and the network takes all bytes,
the request goes out: its header, authorised by the digest of the very data that
are posted, and the data. -/
def TokenPosted (productSn deviceSn deviceSecret : CString) : Prop :=
  ∀ peer : Peer, AcceptsAll peer.write → peer.Answers →
    let data := identityText productSn deviceSn
    ∃ link, httpClientCommon peer .new
          (tokenPost productSn deviceSn deviceSecret) =
        some (link, .successRet) ∧
      link.offered.flatten = tokenLines deviceSecret.bytes data ++ data

/-- The header is shorter than its array, the lines before the data do not fill
the last buffer, and the key is no longer than a block, unless the digest
consists of zeros. -/
structure TokenFits (productSn deviceSn deviceSecret : CString) : Prop where
  header : (identityText productSn deviceSn).length + 121 < httpBufSize
  rest : (tokenLines deviceSecret.bytes
    (identityText productSn deviceSn)).length % httpClientSendBufSize ≠ 0
  key : deviceSecret.bytes.length ≤ 64 ∨
    hmac Sha256.digest 64 deviceSecret.bytes
      (identityText productSn deviceSn) = List.replicate 32 0

/-! ## Printed texts -/

/-- A text without a zero is printed into an array up to its last byte. -/
theorem printedInto_bytes {size : Nat} {formatted : List UInt8}
    (small : size < 2 ^ 31) (positive : size ≠ 0) (noZero : 0 ∉ formatted) :
    (printedInto size formatted).bytes = formatted.take (size - 1) := by
  unfold printedInto
  rw [Shadow.halSnprintf_eq _ _ _ small positive, List.take_nil,
    List.nil_append]
  have kept : 0 ∉ formatted.take (size - 1) :=
    fun mem => noZero (List.mem_of_mem_take mem)
  exact visible_eq kept

theorem identityText_noZero (productSn deviceSn : CString) :
    0 ∉ identityText productSn deviceSn := by
  have product := productSn.zero_not_mem
  have device := deviceSn.zero_not_mem
  simp only [identityText, List.mem_append, not_or]
  exact ⟨⟨⟨⟨by decide, product⟩, by decide⟩, device⟩, by decide⟩

/-- The digits of bytes are none of the bytes that end a string. -/
theorem spelled_noZero (bytes : List UInt8) : 0 ∉ spelled false bytes := by
  intro mem
  obtain ⟨byte, -, digit⟩ := List.mem_flatMap.mp mem
  have every : ∀ value : Fin 256,
      (0 : UInt8) ∉ [Hex.digit false ((UInt8.ofNat value >>> 4) &&& 0xf),
        Hex.digit false (UInt8.ofNat value &&& 0xf)] := by decide +kernel
  have absent := every ⟨byte.toNat, byte.toNat_lt⟩
  rw [UInt8.ofNat_toNat] at absent
  exact absent digit

/-- What the digest in the header is: that of the data where the key is no
longer than a block, and else zeros. -/
theorem macOutputChar_bytes {postBuf : CString}
    (short : postBuf.bytes.length < 2 ^ 32) (deviceSecret : CString) :
    (macOutputChar postBuf deviceSecret).bytes =
      if deviceSecret.bytes.length ≤ 64
      then authorization deviceSecret.bytes postBuf.bytes
      else spelled false (List.replicate 32 0) := by
  let digest := if deviceSecret.bytes.length ≤ 64
    then hmac Sha256.digest 64 deviceSecret.bytes postBuf.bytes
    else List.replicate 32 0
  let array : Memory := if deviceSecret.bytes.length ≤ 64
    then Memory.write (fun _ => 0) 0 digest else fun _ => 0
  have length : digest.length = 32 := by
    unfold digest
    split
    · exact length_digest _
    · exact List.length_replicate
  have stands : array.slice 0 32 = digest := by
    unfold array
    split
    · rw [← length]
      exact Memory.slice_write_same _ 0 digest
    · rename_i longer
      unfold digest
      rw [if_neg longer]
      rfl
  have written : (utilsHmacSha256 (some postBuf.bytes)
      (some deviceSecret.bytes) (some fun _ => 0)).getD (fun _ => 0) =
        array := by
    rw [utilsHmacSha256_eq short]
    unfold array digest
    split <;> rfl
  let converted := liteHexbufConvert array (fun _ => 0) 32 false
  have text : converted.slice 0 64 = spelled false (array.slice 0 32) :=
    liteHexbufConvert_slice array (fun _ => 0) 32 false
  have last : converted 64 = 0 :=
    (liteHexbufConvert_spells array (fun _ => 0) 32 false).2 64 (Nat.le_refl _)
  have whole : converted.slice 0 65 = spelled false digest ++ [0] := by
    rw [Memory.slice_add converted 0 64 1, text, stands, Memory.slice_succ,
      last]
    rfl
  have bytes : (macOutputChar postBuf deviceSecret).bytes =
      spelled false digest := by
    unfold macOutputChar
    dsimp only
    rw [written]
    change (CString.ofArray (converted.slice 0 65)).bytes = _
    rw [whole]
    exact congrArg CString.bytes
      (CString.ofArray_terminated ⟨_, spelled_noZero digest⟩ [])
  rw [bytes]
  unfold digest authorization
  split <;> rfl

/-! ## The request as it is sent -/

theorem length_authorization (deviceSecret data : List UInt8) :
    (authorization deviceSecret data).length = 64 := by
  rw [authorization, length_spelled]
  rfl

theorem length_tokenHeader {mac : List UInt8} (digits : mac.length = 64)
    (data : List UInt8) :
    (tokenHeader mac data).length = data.length + 121 := by
  have first : (ascii
      "Content-Type: application/json\r\nAuthorization: ").length = 47 := by
    decide
  have second : (ascii "\r\nbody: ").length = 8 := by decide
  have third : (ascii "\r\n").length = 2 := by decide
  rw [tokenHeader, List.length_append, List.length_append, List.length_append,
    List.length_append, digits, first, second, third]
  omega

/-- The host and the path of the URL. -/
theorem authPost_addressed (mac postBuf : CString) :
    (authPost mac postBuf).Addressed
      ⟨ascii "http-cn-sh2.iot.ucloud.cn", by decide⟩
      ⟨ascii "/auth", by decide⟩ := by
  have parts : urlParts uiotAuthUrl.bytes =
      some (ascii "http-cn-sh2.iot.ucloud.cn", ascii "/auth") := by
    decide +kernel
  have short : uiotAuthUrl.bytes.length < 2 ^ 32 := by decide +kernel
  refine HttpPost.addressed_of_parts short parts (by decide) ?_
  intro hostText tail parts'
  have same := Option.some.inj (parts.symm.trans parts')
  obtain ⟨rfl, rfl⟩ := Prod.mk.inj same
  decide

/-- What is left of a text in one of the arrays. -/
theorem printedInto_httpBufSize {formatted : List UInt8}
    (noZero : 0 ∉ formatted) :
    (printedInto httpBufSize formatted).bytes = formatted.take 1023 :=
  printedInto_bytes (by decide) (by decide) noZero

theorem tokenHeader_noZero (mac postBuf : CString) :
    0 ∉ tokenHeader mac.bytes postBuf.bytes := by
  have digits := mac.zero_not_mem
  have data := postBuf.zero_not_mem
  simp only [tokenHeader, List.mem_append, not_or]
  exact ⟨⟨⟨⟨by decide, digits⟩, by decide⟩, data⟩, by decide⟩

/-- What is sent for a header and data of a length that is an `int`. -/
theorem authText_eq {post : HttpPost} {header postBuf : CString}
    (method : post.method = .httpPost) (headers : post.header = some header)
    (buffer : post.postBuf = some postBuf.bytes)
    (length : post.postBufLen.toInt = postBuf.bytes.length)
    (type : post.postContentType = some ⟨ascii "application/json", by decide⟩) :
    (post.request ⟨ascii "http-cn-sh2.iot.ucloud.cn", by decide⟩
        ⟨ascii "/auth", by decide⟩).text =
      authLines header.bytes postBuf.bytes := by
  have lines : ascii "POST" ++ ascii " " ++ ascii "/auth" ++
      ascii " HTTP/1.1\r\nHost: " ++ ascii "http-cn-sh2.iot.ucloud.cn" ++
      ascii "\r\n" =
        ascii "POST /auth HTTP/1.1\r\nHost: http-cn-sh2.iot.ucloud.cn\r\n" := by
    decide
  have ending : ascii "\r\n" ++ (ascii "Content-Type: " ++
      ascii "application/json" ++ ascii "\r\n") ++ ascii "\r\n" =
        ascii "\r\nContent-Type: application/json\r\n\r\n" := by
    decide
  unfold Request.text Request.requestLines Request.firstLines
    Request.userHeader Request.postLines HttpPost.request contentLengthLine
    contentTypeLine authLines
  rw [method, headers, buffer, type, length, if_neg (not_not_intro rfl),
    Shadow.decimal_natCast, ← lines, ← ending]
  simp only [Option.map_some, Option.getD_some, List.append_assoc]
  rfl

/-- A post as it is sent: the lines around the header, cut where its array
ends, and the data. -/
theorem authPost_outcome {peer : Peer} (accepts : AcceptsAll peer.write)
    (answers : peer.Answers) (mac : CString) {postBuf : CString}
    (nonempty : postBuf.bytes ≠ []) (short : postBuf.bytes.length < 1024) :
    let data := postBuf.bytes
    let lines := authLines ((tokenHeader mac.bytes data).take 1023) data
    ∃ link, httpClientCommon peer .new (authPost mac postBuf) =
        some (link, if lines.length % httpClientSendBufSize = 0
          then .errHttpConnError else .successRet) ∧
      link.offered.flatten = lines ++
        if lines.length % httpClientSendBufSize = 0 then [] else data := by
  intro data lines
  let header := printedInto httpBufSize (tokenHeader mac.bytes postBuf.bytes)
  have headerBytes : header.bytes = (tokenHeader mac.bytes data).take 1023 :=
    printedInto_httpBufSize (tokenHeader_noZero mac postBuf)
  have headerShort : header.bytes.length ≤ 1023 := by
    rw [headerBytes]
    exact List.length_take_le ..
  have length : (authPost mac postBuf).postBufLen.toInt = data.length :=
    Int32.toInt_ofNat_of_lt (by omega)
  have headers : (authPost mac postBuf).header = some header := rfl
  have text := authText_eq rfl headers rfl length rfl
  rw [headerBytes] at text
  have printable : (authPost mac postBuf).Printable
      ⟨ascii "http-cn-sh2.iot.ucloud.cn", by decide⟩
      ⟨ascii "/auth", by decide⟩ data :=
    { method := .inl rfl
      addressed := authPost_addressed mac postBuf
      postBuf := rfl
      postBufLen := length
      nonempty := nonempty
      lines := (by decide : 54 < httpClientRequestBufSize)
      header := Nat.lt_of_le_of_lt headerShort (by decide)
      type := fun _ type _ typed => by
        obtain rfl := Option.some.inj typed
        decide }
  have outcome := httpClientCommon_outcome accepts printable answers
  dsimp only at outcome
  rw [text] at outcome
  exact outcome

/-! ## When the request is as it is meant -/

theorem length_authLines (header data : List UInt8) :
    (authLines header data).length =
      header.length + (digits data.length).length + 106 := by
  have first : (ascii
      "POST /auth HTTP/1.1\r\nHost: http-cn-sh2.iot.ucloud.cn\r\n").length =
        54 := by decide
  have second : (ascii "Content-Length: ").length = 16 := by decide
  have third : (ascii
      "\r\nContent-Type: application/json\r\n\r\n").length = 36 := by decide
  rw [authLines, List.length_append, List.length_append, List.length_append,
    List.length_append, first, second, third]
  omega

/-- The digest in the lines is told by them. -/
theorem authLines_inj {first second data : List UInt8}
    (same : authLines (tokenHeader first data) data =
      authLines (tokenHeader second data) data) : first = second := by
  have lines := List.append_cancel_right
    (List.append_cancel_right (List.append_cancel_right same))
  have headers := List.append_cancel_left lines
  have front := List.append_cancel_right
    (List.append_cancel_right (List.append_cancel_right headers))
  exact List.append_cancel_left front

/-- What is sent with cut texts is the request only if nothing was cut. -/
theorem uncut_of_sent {mac text : List UInt8} (sixtyFour : mac.length = 64)
    {deviceSecret : List UInt8}
    (same : authLines ((tokenHeader mac (text.take 1023)).take 1023)
        (text.take 1023) ++ text.take 1023 =
      tokenLines deviceSecret text ++ text) : text.length + 121 < 1024 := by
  have lengths := congrArg List.length same
  rw [List.length_append, List.length_append, tokenLines, length_authLines,
    length_authLines, length_tokenHeader (length_authorization _ _),
    List.length_take, length_tokenHeader sixtyFour, List.length_take] at lengths
  have fewer := length_digits_mono (Nat.min_le_right 1023 text.length)
  omega

/-- The request of a device is sent as it is meant exactly if its header is
shorter than 1024 bytes, the lines before the data do not fill the last buffer,
and the key of the device is no longer than a block of the hash. -/
theorem tokenPosted_iff (productSn deviceSn deviceSecret : CString) :
    TokenPosted productSn deviceSn deviceSecret ↔
      TokenFits productSn deviceSn deviceSecret := by
  let text := identityText productSn deviceSn
  let postBuf := printedInto httpBufSize text
  let mac := macOutputChar postBuf deviceSecret
  have data : postBuf.bytes = text.take 1023 :=
    printedInto_httpBufSize (identityText_noZero productSn deviceSn)
  have short : postBuf.bytes.length < 1024 := by
    rw [data, List.length_take]
    omega
  have nonempty : postBuf.bytes ≠ [] := by
    rw [data]
    exact List.cons_ne_nil _ _
  have bytes := macOutputChar_bytes (short.trans (by decide)) deviceSecret
  have sixtyFour : mac.bytes.length = 64 := by
    rw [bytes]
    split
    · exact length_authorization ..
    · rw [length_spelled, List.length_replicate]
  have outcome {peer : Peer} (accepts : AcceptsAll peer.write)
      (answers : peer.Answers) :=
    authPost_outcome accepts answers mac nonempty short
  dsimp only at outcome
  rw [data] at outcome bytes
  constructor
  · intro posted
    let peer : Peer := ⟨fun _ => 1, fun _ bytes => .ok bytes.length⟩
    have accepts : AcceptsAll peer.write := fun _ _ => rfl
    have answers : peer.Answers := ⟨0, by decide, Nat.one_ne_zero⟩
    obtain ⟨link, result, flat⟩ := posted peer accepts answers
    obtain ⟨link', result', flat'⟩ := outcome accepts answers
    obtain ⟨rfl, success⟩ :=
      Prod.mk.inj (Option.some.inj (result.symm.trans result'))
    split at success
    · cases success
    rename_i rest
    rw [if_neg rest] at flat'
    have same := flat'.symm.trans flat
    have fits := uncut_of_sent sixtyFour same
    have whole : text.take 1023 = text := List.take_of_length_le (by omega)
    rw [whole] at same rest bytes
    have header : (tokenHeader mac.bytes text).take 1023 =
        tokenHeader mac.bytes text := by
      apply List.take_of_length_le
      rw [length_tokenHeader sixtyFour]
      omega
    rw [header] at same rest
    have lines := List.append_cancel_right same
    refine ⟨fits, lines ▸ rest, ?_⟩
    have digest := authLines_inj lines
    rw [bytes] at digest
    split at digest
    · rename_i block
      exact .inl block
    · exact .inr (spelled_inj digest).symm
  · intro fits peer accepts answers
    have header : text.length + 121 < 1024 := fits.header
    have whole : text.take 1023 = text := List.take_of_length_le (by omega)
    rw [whole] at bytes outcome
    have digest : mac.bytes = authorization deviceSecret.bytes text := by
      rw [bytes]
      rcases fits.key with block | zeros
      · rw [if_pos block]
      · rw [authorization, zeros]
        split <;> rfl
    obtain ⟨link, result, flat⟩ := outcome accepts answers
    have uncut : (tokenHeader mac.bytes text).take 1023 =
        tokenHeader mac.bytes text := by
      apply List.take_of_length_le
      rw [length_tokenHeader sixtyFour]
      omega
    rw [uncut, digest] at result flat
    have rest := fits.rest
    change (authLines (tokenHeader (authorization deviceSecret.bytes text) text)
      text).length % httpClientSendBufSize ≠ 0 at rest
    rw [if_neg rest] at result flat
    exact ⟨link, result, flat⟩

end Http
end UIoT
