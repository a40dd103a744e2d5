import UIoT.Http.Response

/-!
# URLs

`_utils_parse_url` cuts the host and the path out of the URL of a firmware into
two arrays of 256 bytes, and on Linux `_utils_parse_name` cuts out the name of
the file to write.  Every use of an array is recorded with the length the code
passes; the model goes on with the bytes that are there.
-/

namespace UIoT
namespace Http

/-- `HTTP_CLIENT_MAX_URL_LEN` -/
def httpClientMaxUrlLen : Nat := 256

/-- `strchr` for a byte that is not zero: where it first occurs. -/
def strchr (byte : UInt8) (text : List UInt8) : Option Nat := text.idxOf? byte

/-- `HAL_Malloc`: an array with what the memory held there before. -/
def halMalloc (memory : Nat → UInt8) (size : Nat) : List UInt8 :=
  (List.range size).map memory

/-- The difference of two pointers as a `uint32_t`. -/
def uint32OfPtrDiff (difference : Int) : Nat := (difference % 2 ^ 32).toNat

/-- `memcpy` of a number of bytes to the beginning of an array, and a terminator
at a place: the array and its uses. -/
def copyText (array source : List UInt8) (length terminator : Nat) :
    List UInt8 × List BufferUse :=
  (overlay (overlay array 0 (source.take length)) terminator [0],
    [⟨array.length, 0, length⟩, ⟨array.length, terminator, 1⟩])

/-- `_utils_parse_url`: its answer, the two arrays and their uses. -/
def utilsParseUrl (url : CString) (host path : List UInt8) :
    IoTError × List UInt8 × List UInt8 × List BufferUse :=
  match strstr (ascii "://") url.bytes with
  | none => (.errParamInvalid, host, path, [])
  | some found =>
      let hostPtr := found + 3
      match strchr 47 (url.bytes.drop hostPtr) with
      | none => (.errParamInvalid, host, path, [])
      | some found =>
          let pathPtr := hostPtr + found
          let hostLen := uint32OfPtrDiff ((pathPtr : Int) - hostPtr)
          let (host, hostUses) :=
            copyText host (url.bytes.drop hostPtr) hostLen hostLen
          let pathLen :=
            match strchr 35 (url.bytes.drop hostPtr) with
            | some found =>
                uint32OfPtrDiff (((hostPtr + found : Nat) : Int) - pathPtr)
            | none => uint32OfPtrDiff (url.bytes.drop pathPtr).length
          let (path, pathUses) :=
            copyText path (url.bytes.drop pathPtr) pathLen pathLen
          (.successRet, host, path, hostUses ++ pathUses)

/-- `_utils_parse_name` of Linux: its answer, the array and its uses. -/
def utilsParseName (url : CString) (name : List UInt8) :
    Int × List UInt8 × List BufferUse :=
  match strstr (ascii "://") url.bytes with
  | none => (-1, name, [])
  | some found =>
      let hostPtr := found + 3
      match strchr 47 (url.bytes.drop hostPtr) with
      | none => (-2, name, [])
      | some found =>
          let pathPtr := hostPtr + found
          match strchr 63 (url.bytes.drop pathPtr) with
          | none => (-2, name, [])
          | some found =>
              let namePtr := pathPtr + found
              let nameLen := uint32OfPtrDiff ((namePtr : Int) - pathPtr)
              let (name, uses) := copyText name (url.bytes.drop (pathPtr + 1))
                (uint32OfPtrDiff ((nameLen : Int) - 1)) nameLen
              (0, name, uses)

/-- `HAL_Download_Name_Set` of Linux, where there is memory for the name: the
name it returns, if it returns one, and the uses of its array. -/
def halDownloadNameSet (url : CString) (memory : Nat → UInt8) :
    Option (List UInt8) × List BufferUse :=
  match utilsParseName url (halMalloc memory url.bytes.length) with
  | (0, name, uses) => (some name, uses)
  | (_, _, uses) => (none, uses)

/-! ## The parts of a URL -/

/-- The host, which stands between `://` and the next slash, and what begins
with this slash. -/
def urlParts (url : List UInt8) : Option (List UInt8 × List UInt8) :=
  (strstr (ascii "://") url).bind fun scheme =>
    let behind := url.drop (scheme + 3)
    if 47 ∈ behind then
      some (behind.takeWhile (· ≠ 47), behind.dropWhile (· ≠ 47))
    else none

/-- The path, up to the first `#`. -/
def pathText (tail : List UInt8) : List UInt8 := tail.takeWhile (· ≠ 35)

/-- The name, which is the path without its slash up to the first `?`. -/
def nameText (tail : List UInt8) : List UInt8 :=
  ((pathText tail).drop 1).takeWhile (· ≠ 63)

/-- The host and the path are cut out within the arrays, which are zero before,
or there is an error. -/
def UrlParsed (url : CString) : Prop :=
  let array := List.replicate httpClientMaxUrlLen 0
  let (ret, host, path, uses) := utilsParseUrl url array array
  ret ≠ .successRet ∨
    (∀ use ∈ uses, use.Within) ∧ ∃ hostText tail,
      urlParts url.bytes = some (hostText, tail) ∧
        cString host = hostText ∧ cString path = pathText tail

/-- The name is cut out within its array, whatever the memory held before, or
there is an error. -/
def NameParsed (url : CString) (memory : Nat → UInt8) : Prop :=
  let (answer, uses) := halDownloadNameSet url memory
  ∀ name, answer = some name →
    (∀ use ∈ uses, use.Within) ∧ ∃ hostText tail,
      urlParts url.bytes = some (hostText, tail) ∧
        cString name = nameText tail

/-- The host and the path are shorter than the arrays, and no `#` stands in the
host. -/
def PartsShort (url : List UInt8) : Prop :=
  ∀ hostText tail, urlParts url = some (hostText, tail) →
    hostText.length < httpClientMaxUrlLen ∧ 35 ∉ hostText ∧
      (pathText tail).length < httpClientMaxUrlLen

/-- Where there is a `?`, no `#` stands before it, and the memory has a zero
where the byte behind the name comes to lie. -/
def NameEnds (url : List UInt8) (memory : Nat → UInt8) : Prop :=
  ∀ hostText tail, urlParts url = some (hostText, tail) →
    ∀ asked, strchr 63 tail = some asked →
      35 ∉ tail.take asked ∧ memory (asked - 1) = 0

/-! ## Searching -/

/-- A byte that occurs first at a place divides the text there. -/
theorem strchr_divides {byte : UInt8} {text : List UInt8} {place : Nat}
    (found : strchr byte text = some place) :
    text.takeWhile (· ≠ byte) = text.take place ∧
      text.dropWhile (· ≠ byte) = text.drop place ∧
      ∃ rest, text.drop place = byte :: rest := by
  unfold strchr at found
  induction text generalizing place with
  | nil => cases found
  | cons first text inductionHypothesis =>
      rw [List.idxOf?_cons] at found
      split at found
      · rename_i same
        obtain rfl := Option.some.inj found
        obtain rfl := beq_iff_eq.mp same
        exact ⟨by simp, by simp, text, rfl⟩
      · rename_i other
        obtain ⟨before, later, rfl⟩ := Option.map_eq_some_iff.mp found
        obtain ⟨front, behind, rest, divides⟩ := inductionHypothesis later
        have differs : first ≠ byte := by simpa using other
        refine ⟨?_, ?_, rest, divides⟩
        · rw [List.takeWhile_cons, if_pos (by simpa using differs), front,
            List.take_succ_cons]
        · rw [List.dropWhile_cons, if_pos (by simpa using differs), behind,
            List.drop_succ_cons]

theorem strchr_eq_none_iff {byte : UInt8} {text : List UInt8} :
    strchr byte text = none ↔ byte ∉ text :=
  List.idxOf?_eq_none_iff

theorem strchr_lt {byte : UInt8} {text : List UInt8} {place : Nat}
    (found : strchr byte text = some place) : place < text.length := by
  obtain ⟨_, _, rest, divides⟩ := strchr_divides found
  have longer := congrArg List.length divides
  rw [List.length_drop, List.length_cons] at longer
  omega

/-- Where a byte is not in the front, it is searched behind it. -/
theorem strchr_append {byte : UInt8} (front text : List UInt8) :
    strchr byte (front ++ text) =
      (strchr byte front).or ((strchr byte text).map (· + front.length)) :=
  List.findIdx?_append

/-! ## Copying -/

theorem length_halMalloc (memory : Nat → UInt8) (size : Nat) :
    (halMalloc memory size).length = size := by
  rw [halMalloc, List.length_map, List.length_range]

theorem uint32OfPtrDiff_natCast {difference : Nat}
    (fits : difference < 2 ^ 32) :
    uint32OfPtrDiff difference = difference := by
  unfold uint32OfPtrDiff
  omega

/-- A pointer that lies before the other one looks far behind it. -/
theorem uint32OfPtrDiff_backwards {first second : Nat} (before : first < second)
    (near : second - first < 2 ^ 31) :
    2 ^ 31 ≤ uint32OfPtrDiff ((first : Int) - second) := by
  unfold uint32OfPtrDiff
  omega

/-- What is copied within an array with its terminator is shorter. -/
theorem copyText_within {array source : List UInt8} {length : Nat}
    (within : ∀ use ∈ (copyText array source length length).2, use.Within) :
    length < array.length := by
  have terminator : (⟨array.length, length, 1⟩ : BufferUse).Within :=
    within _ (by simp [copyText])
  have ends : (length : Int) + 1 ≤ array.length := terminator.2.2
  omega

/-- A shorter text is copied within an array, and then it stands there. -/
theorem copyText_stands (array : List UInt8) {source : List UInt8}
    {length : Nat}
    (there : length ≤ source.length) (noZero : 0 ∉ source)
    (fits : length < array.length) :
    (∀ use ∈ (copyText array source length length).2, use.Within) ∧
      cString (copyText array source length length).1 =
        source.take length := by
  have size : (source.take length).length = length :=
    List.length_take_of_le there
  have first : overlay (overlay array 0 (source.take length))
      (source.take length).length [0] =
        headerArray (source.take length) array :=
    overlay_first (by omega)
  rw [size] at first
  have written : (copyText array source length length).1 =
      headerArray (source.take length) array := first
  have kept : 0 ∉ source.take length :=
    fun mem => noZero (List.mem_of_mem_take mem)
  refine ⟨fun use mem => ?_, ?_⟩
  · rcases List.mem_pair.mp mem with rfl | rfl
    all_goals
      unfold BufferUse.Within
      dsimp only
      omega
  · rw [written, cString_headerArray, visible_eq kept]

/-! ## The host and the path -/

/-- A URL has parts exactly if both delimiters are found, and then they lie
there. -/
theorem urlParts_eq_some {url hostText tail : List UInt8}
    (parts : urlParts url = some (hostText, tail)) :
    ∃ scheme, strstr (ascii "://") url = some scheme ∧
      url.drop (scheme + 3) = hostText ++ tail ∧
      strchr 47 (hostText ++ tail) = some hostText.length ∧
      ∃ rest, tail = 47 :: rest := by
  obtain ⟨scheme, found, parts⟩ := Option.bind_eq_some_iff.mp parts
  dsimp only at parts
  split at parts
  · rename_i mem
    obtain ⟨rfl, rfl⟩ := Prod.mk.inj (Option.some.inj parts)
    cases place : strchr 47 (url.drop (scheme + 3)) with
    | none => exact absurd mem (strchr_eq_none_iff.mp place)
    | some place' =>
        obtain ⟨front, behind, rest, divides⟩ := strchr_divides place
        have bound := strchr_lt place
        refine ⟨scheme, found, List.takeWhile_append_dropWhile.symm, ?_,
          rest, behind.trans divides⟩
        rw [List.takeWhile_append_dropWhile, place, front,
          List.length_take_of_le (Nat.le_of_lt bound)]
  · cases parts

theorem urlParts_eq_none {url : List UInt8} (parts : urlParts url = none) :
    strstr (ascii "://") url = none ∨
      ∃ scheme, strstr (ascii "://") url = some scheme ∧
        strchr 47 (url.drop (scheme + 3)) = none := by
  cases found : strstr (ascii "://") url with
  | none => exact .inl rfl
  | some scheme =>
      refine .inr ⟨scheme, rfl, strchr_eq_none_iff.mpr fun mem => ?_⟩
      rw [urlParts, found, Option.bind_some, if_pos mem] at parts
      cases parts

/-- The length the code takes for the path. -/
def pathLength (hostText tail : List UInt8) : Nat :=
  match strchr 35 (hostText ++ tail) with
  | some found => uint32OfPtrDiff ((found : Int) - hostText.length)
  | none => uint32OfPtrDiff tail.length

/-- Where the parts of a URL go. -/
theorem utilsParseUrl_of_parts {url : CString}
    (short : url.bytes.length < 2 ^ 32) {hostText tail : List UInt8}
    (parts : urlParts url.bytes = some (hostText, tail))
    (host path : List UInt8) :
    let hostCopy :=
      copyText host (hostText ++ tail) hostText.length hostText.length
    let length := pathLength hostText tail
    let pathCopy := copyText path tail length length
    utilsParseUrl url host path =
      (.successRet, hostCopy.1, pathCopy.1, hostCopy.2 ++ pathCopy.2) := by
  intro hostCopy length pathCopy
  obtain ⟨scheme, found, divides, slash, -⟩ := urlParts_eq_some parts
  have size := congrArg List.length divides
  rw [List.length_drop, List.length_append] at size
  have hostLen : uint32OfPtrDiff
      (((scheme + 3 + hostText.length : Nat) : Int) - (scheme + 3 : Nat)) =
        hostText.length := by
    rw [← Nat.cast_sub (by omega), Nat.add_sub_cancel_left]
    exact uint32OfPtrDiff_natCast (by omega)
  have behind : url.bytes.drop (scheme + 3 + hostText.length) = tail := by
    rw [← List.drop_drop, divides, List.drop_left]
  unfold utilsParseUrl
  rw [found]
  dsimp only
  rw [divides, slash]
  dsimp only
  rw [hostLen, behind]
  have pathLen : length = match strchr 35 (hostText ++ tail) with
      | some found => uint32OfPtrDiff (((scheme + 3 + found : Nat) : Int) -
          (scheme + 3 + hostText.length : Nat))
      | none => uint32OfPtrDiff tail.length := by
    change pathLength hostText tail = _
    unfold pathLength
    split
    · congr 1
      omega
    · rfl
  rw [← pathLen]

/-- The path has its own length exactly if there is no `#` in the host. -/
theorem pathLength_eq {hostText tail : List UInt8}
    (short : tail.length < 2 ^ 32) (clean : 35 ∉ hostText) :
    pathLength hostText tail = (pathText tail).length ∧
      tail.take (pathText tail).length = pathText tail := by
  have front : pathText tail <+: tail := List.takeWhile_prefix _
  refine ⟨?_, (List.prefix_iff_eq_take.mp front).symm⟩
  have bound := front.length_le
  rw [pathLength, strchr_append, strchr_eq_none_iff.mpr clean, Option.none_or]
  cases place : strchr 35 tail with
  | none =>
      have whole : pathText tail = tail := by
        refine List.takeWhile_eq_self_iff.mpr fun byte mem => ?_
        rw [decide_eq_true_iff]
        rintro rfl
        exact strchr_eq_none_iff.mp place mem
      rw [whole]
      exact uint32OfPtrDiff_natCast short
  | some found =>
      have size : (pathText tail).length = found := by
        rw [pathText, (strchr_divides place).1]
        exact List.length_take_of_le (Nat.le_of_lt (strchr_lt place))
      dsimp only [Option.map_some]
      rw [Nat.cast_add, Int.add_sub_cancel, size]
      exact uint32OfPtrDiff_natCast (by omega)

/-- A `#` in the host makes the length of the path huge. -/
theorem pathLength_backwards {hostText tail : List UInt8} {place : Nat}
    (found : strchr 35 hostText = some place)
    (short : hostText.length < 2 ^ 31) :
    2 ^ 31 ≤ pathLength hostText tail := by
  rw [pathLength, strchr_append, found, Option.some_or]
  have before := strchr_lt found
  exact uint32OfPtrDiff_backwards before (by omega)

/-- The host and the path of a URL are cut out, or there is an error, exactly if
they are shorter than the arrays and the host has no `#`. -/
theorem urlParsed_iff {url : CString} (short : url.bytes.length < 2 ^ 32) :
    UrlParsed url ↔ PartsShort url.bytes := by
  cases parts : urlParts url.bytes with
  | none =>
      have failed : UrlParsed url := by
        unfold UrlParsed utilsParseUrl
        have error : IoTError.errParamInvalid ≠ .successRet := by decide
        rcases urlParts_eq_none parts with missing | ⟨scheme, found, missing⟩
        · rw [missing]
          exact .inl error
        · rw [found]
          dsimp only
          rw [missing]
          exact .inl error
      have nothing : PartsShort url.bytes := by
        intro hostText tail parts'
        rw [parts] at parts'
        cases parts'
      exact iff_of_true failed nothing
  | some found =>
      obtain ⟨hostText, tail⟩ := found
      obtain ⟨scheme, -, divides, -, -⟩ := urlParts_eq_some parts
      have size := congrArg List.length divides
      rw [List.length_drop, List.length_append] at size
      have noZero : 0 ∉ hostText ++ tail :=
        fun mem => url.zero_not_mem (List.mem_of_mem_drop (divides ▸ mem))
      have noZeroTail : 0 ∉ tail :=
        fun mem => noZero (List.mem_append_right _ mem)
      dsimp only [UrlParsed]
      rw [utilsParseUrl_of_parts short parts]
      dsimp only
      constructor
      · rintro (failed | ⟨within, -⟩) hostText' tail' parts'
        · exact absurd rfl failed
        rw [parts] at parts'
        obtain ⟨rfl, rfl⟩ := Prod.mk.inj (Option.some.inj parts')
        have hostShort := copyText_within fun use mem =>
          within use (List.mem_append_left _ mem)
        have pathShort := copyText_within fun use mem =>
          within use (List.mem_append_right _ mem)
        rw [List.length_replicate] at hostShort pathShort
        have clean : 35 ∉ hostText := by
          rw [← strchr_eq_none_iff]
          cases place : strchr 35 hostText with
          | none => rfl
          | some place' =>
              unfold httpClientMaxUrlLen at hostShort pathShort
              have huge : 2 ^ 31 ≤ pathLength hostText tail :=
                pathLength_backwards place (by omega)
              omega
        rw [(pathLength_eq (by omega) clean).1] at pathShort
        exact ⟨hostShort, clean, pathShort⟩
      · intro fits
        obtain ⟨hostShort, clean, pathShort⟩ := fits hostText tail parts
        have tailShort : tail.length < 2 ^ 32 := by omega
        obtain ⟨length, front⟩ := pathLength_eq tailShort clean
        rw [length]
        have bound : (pathText tail).length ≤ tail.length :=
          (List.takeWhile_prefix _).length_le
        have hostThere : hostText.length ≤ (hostText ++ tail).length := by
          rw [List.length_append]
          exact Nat.le_add_right ..
        let array : List UInt8 := List.replicate httpClientMaxUrlLen 0
        have size : array.length = httpClientMaxUrlLen := List.length_replicate
        obtain ⟨hostWithin, hostStands⟩ :=
          copyText_stands array hostThere noZero (size ▸ hostShort)
        obtain ⟨pathWithin, pathStands⟩ :=
          copyText_stands array bound noZeroTail (size ▸ pathShort)
        rw [List.take_left] at hostStands
        rw [front] at pathStands
        refine .inr ⟨fun use mem => ?_, hostText, tail, parts, hostStands,
          pathStands⟩
        exact (List.mem_append.mp mem).elim (hostWithin use) (pathWithin use)

/-! ## The name -/

/-- A text and its terminator are written with a byte between them that is left
as it was. -/
theorem overlay_gap {array text : List UInt8}
    (fits : text.length + 1 < array.length) :
    ∃ rest, overlay (overlay array 0 text) (text.length + 1) [0] =
      text ++ array[text.length] :: 0 :: rest := by
  have gap : array.drop text.length =
      array[text.length] :: array.drop (text.length + 1) :=
    List.drop_eq_getElem_cons (by omega)
  have first : overlay array 0 text =
      (text ++ [array[text.length]]) ++ array.drop (text.length + 1) := by
    rw [overlay_eq (by omega), List.take_zero, List.nil_append, Nat.zero_add,
      gap, List.append_assoc, List.singleton_append]
  have size : (text ++ [array[text.length]]).length = text.length + 1 := by
    rw [List.length_append, List.length_singleton]
  refine ⟨(array.drop (text.length + 1)).drop 1, ?_⟩
  rw [first, ← size, overlay_append, List.append_assoc, List.append_assoc]
  · rfl
  · rw [List.length_drop, List.length_singleton]
    omega

theorem strchr_behind {rest : List UInt8} {asked : Nat}
    (found : strchr 63 rest = some asked) :
    strchr 63 (47 :: rest) = some (asked + 1) := by
  rw [strchr, List.idxOf?_cons, if_neg (by decide)]
  exact congrArg (Option.map (· + 1)) found

/-- What the array of the name holds: the bytes up to the `?`, the byte that was
behind them, and the terminator. -/
theorem halDownloadNameSet_of_parts {url : CString}
    (short : url.bytes.length < 2 ^ 32) {hostText rest : List UInt8}
    (parts : urlParts url.bytes = some (hostText, 47 :: rest)) {asked : Nat}
    (found : strchr 63 rest = some asked) (memory : Nat → UInt8) :
    ∃ behind uses, halDownloadNameSet url memory =
        (some (rest.take asked ++ memory asked :: 0 :: behind), uses) ∧
      ∀ use ∈ uses, use.Within := by
  obtain ⟨scheme, scheme_eq, divides, slash, -⟩ := urlParts_eq_some parts
  have size := congrArg List.length divides
  rw [List.length_drop, List.length_append, List.length_cons] at size
  have before := strchr_lt found
  have textSize : (rest.take asked).length = asked :=
    List.length_take_of_le (Nat.le_of_lt before)
  have tail : url.bytes.drop (scheme + 3 + hostText.length) = 47 :: rest := by
    rw [← List.drop_drop, divides, List.drop_left]
  have behind : url.bytes.drop (scheme + 3 + hostText.length + 1) = rest := by
    rw [← List.drop_drop, tail]
    rfl
  have nameLen : uint32OfPtrDiff
      (((scheme + 3 + hostText.length + (asked + 1) : Nat) : Int) -
        (scheme + 3 + hostText.length : Nat)) = asked + 1 := by
    rw [← Nat.cast_sub (by omega), Nat.add_sub_cancel_left]
    exact uint32OfPtrDiff_natCast (by omega)
  have copied : uint32OfPtrDiff (((asked + 1 : Nat) : Int) - 1) = asked := by
    rw [Nat.cast_add, Nat.cast_one, Int.add_sub_cancel]
    exact uint32OfPtrDiff_natCast (by omega)
  have fits : (rest.take asked).length + 1 <
      (halMalloc memory url.bytes.length).length := by
    rw [textSize, length_halMalloc]
    omega
  obtain ⟨stale, written⟩ := overlay_gap fits
  have held : (halMalloc memory url.bytes.length)[(rest.take asked).length] =
      memory asked := by
    simp only [halMalloc, List.getElem_map, List.getElem_range, textSize]
  rw [held, textSize] at written
  refine ⟨stale, [⟨url.bytes.length, 0, asked⟩,
    ⟨url.bytes.length, (asked + 1 : Nat), 1⟩], ?_, fun use mem => ?_⟩
  · unfold halDownloadNameSet utilsParseName
    rw [scheme_eq]
    dsimp only
    rw [divides, slash]
    dsimp only
    rw [tail, strchr_behind found]
    dsimp only
    rw [nameLen, copied, behind, copyText, length_halMalloc, written]
    rfl
  · rcases List.mem_pair.mp mem with rfl | rfl
    all_goals
      unfold BufferUse.Within
      dsimp only
      omega

/-- Without both delimiters or a `?` behind them no name is returned. -/
theorem halDownloadNameSet_eq_none {url : CString}
    (missing : ∀ hostText tail, urlParts url.bytes = some (hostText, tail) →
      strchr 63 tail = none) (memory : Nat → UInt8) :
    (halDownloadNameSet url memory).1 = none := by
  unfold halDownloadNameSet utilsParseName
  cases parts : urlParts url.bytes with
  | none =>
      rcases urlParts_eq_none parts with absent | ⟨scheme, found, absent⟩
      · rw [absent]
        rfl
      · rw [found]
        dsimp only
        rw [absent]
        rfl
  | some found =>
      obtain ⟨hostText, tail⟩ := found
      obtain ⟨scheme, scheme_eq, divides, slash, -⟩ := urlParts_eq_some parts
      have behind : url.bytes.drop (scheme + 3 + hostText.length) = tail := by
        rw [← List.drop_drop, divides, List.drop_left]
      rw [scheme_eq]
      dsimp only
      rw [divides, slash]
      dsimp only
      rw [behind, missing hostText tail parts]
      rfl

/-- Bytes without zeros, one more byte and a terminator are the bytes before a
`#` exactly if there is no `#` and the further byte is zero. -/
theorem cString_stray_iff {text rest : List UInt8} {stray : UInt8}
    (noZero : 0 ∉ text) :
    cString (text ++ stray :: 0 :: rest) = text.takeWhile (· ≠ 35) ↔
      35 ∉ text ∧ stray = 0 := by
  have front : cString (text ++ stray :: 0 :: rest) =
      text ++ if stray = 0 then [] else [stray] := by
    change (text ++ stray :: 0 :: rest).takeWhile (· ≠ 0) = _
    rw [List.takeWhile_append_of_pos]
    · by_cases zero : stray = 0
      · simp [zero]
      · simp [zero]
    · intro byte mem
      rw [decide_eq_true_iff]
      rintro rfl
      exact noZero mem
  rw [front]
  constructor
  · intro same
    have shorter : (text.takeWhile (· ≠ 35)).length ≤ text.length :=
      (List.takeWhile_prefix _).length_le
    have size := congrArg List.length same
    rw [List.length_append] at size
    have zero : stray = 0 := by
      by_contra other
      rw [if_neg other, List.length_singleton] at size
      omega
    rw [if_pos zero, List.append_nil] at same
    refine ⟨fun mem => ?_, zero⟩
    rw [same] at mem
    simpa using List.mem_takeWhile_imp mem
  · rintro ⟨clean, rfl⟩
    rw [if_pos rfl, List.append_nil]
    symm
    refine List.takeWhile_eq_self_iff.mpr fun byte mem => ?_
    rw [decide_eq_true_iff]
    rintro rfl
    exact clean mem

/-- The name in the bytes behind the slash. -/
theorem nameText_eq {rest : List UInt8} {asked : Nat}
    (found : strchr 63 rest = some asked) :
    nameText (47 :: rest) = (rest.take asked).takeWhile (· ≠ 35) := by
  rw [nameText, pathText, List.takeWhile_cons, if_pos (by decide),
    List.drop_one, List.tail_cons, ← (strchr_divides found).1]
  simp only [List.takeWhile_takeWhile, and_comm]

/-- The name of a URL is cut out within its array, or there is an error, exactly
if there is no `?`, or no `#` stands before it and the memory has a zero behind
the name. -/
theorem nameParsed_iff {url : CString} (short : url.bytes.length < 2 ^ 32)
    (memory : Nat → UInt8) :
    NameParsed url memory ↔ NameEnds url.bytes memory := by
  by_cases named : ∃ hostText rest asked,
      urlParts url.bytes = some (hostText, 47 :: rest) ∧
        strchr 63 rest = some asked
  · obtain ⟨hostText, rest, asked, parts, found⟩ := named
    obtain ⟨scheme, -, divides, -, -⟩ := urlParts_eq_some parts
    obtain ⟨stale, uses, answer, within⟩ :=
      halDownloadNameSet_of_parts short parts found memory
    have noZero : 0 ∉ rest.take asked := by
      intro mem
      apply url.zero_not_mem
      refine List.mem_of_mem_drop (divides ▸ List.mem_append_right _ ?_)
      exact List.mem_cons_of_mem _ (List.mem_of_mem_take mem)
    have stands : NameParsed url memory ↔
        cString (rest.take asked ++ memory asked :: 0 :: stale) =
          nameText (47 :: rest) := by
      unfold NameParsed
      rw [answer]
      dsimp only
      constructor
      · intro parsed
        obtain ⟨-, _, _, parts', same⟩ := parsed _ rfl
        rw [parts] at parts'
        obtain ⟨rfl, rfl⟩ := Prod.mk.inj (Option.some.inj parts')
        exact same
      · rintro same name equal
        obtain rfl := Option.some.inj equal
        exact ⟨within, hostText, 47 :: rest, parts, same⟩
    have ends : NameEnds url.bytes memory ↔
        35 ∉ rest.take asked ∧ memory asked = 0 := by
      have clean : 35 ∉ (47 :: rest).take (asked + 1) ↔
          35 ∉ rest.take asked := by
        rw [List.take_succ_cons, List.mem_cons]
        simp
      constructor
      · intro ends
        obtain ⟨before, zero⟩ :=
          ends hostText (47 :: rest) parts (asked + 1) (strchr_behind found)
        exact ⟨clean.mp before, zero⟩
      · rintro ⟨before, zero⟩ hostText' tail' parts' asked' found'
        rw [parts] at parts'
        obtain ⟨rfl, rfl⟩ := Prod.mk.inj (Option.some.inj parts')
        rw [strchr_behind found] at found'
        obtain rfl := Option.some.inj found'
        exact ⟨clean.mpr before, zero⟩
    rw [stands, ends, nameText_eq found, cString_stray_iff noZero]
  · have missing : ∀ hostText tail,
        urlParts url.bytes = some (hostText, tail) → strchr 63 tail = none := by
      intro hostText tail parts
      obtain ⟨_, -, -, -, rest, rfl⟩ := urlParts_eq_some parts
      cases found : strchr 63 (47 :: rest) with
      | none => rfl
      | some place =>
          rw [strchr, List.idxOf?_cons, if_neg (by decide)] at found
          obtain ⟨asked, later, -⟩ := Option.map_eq_some_iff.mp found
          exact absurd ⟨hostText, rest, asked, parts, later⟩ named
    have failed : NameParsed url memory := by
      intro name returned
      have unnamed := halDownloadNameSet_eq_none missing memory
      exact absurd (unnamed.symm.trans returned) (by simp)
    have nothing : NameEnds url.bytes memory := by
      intro hostText tail parts asked found
      rw [missing hostText tail parts] at found
      cases found
    exact iff_of_true failed nothing

/-! ## Every URL -/

/-- A URL of a message is taken apart within the arrays and as it is written, or
there is an error, exactly if its host and path are shorter than their arrays,
no `#` stands in the host or before the `?`, and the memory of the name has a
zero behind it. -/
theorem urlHandled_iff {url : CString} (short : url.bytes.length < 2 ^ 32)
    (memory : Nat → UInt8) :
    UrlParsed url ∧ NameParsed url memory ↔
      PartsShort url.bytes ∧ NameEnds url.bytes memory :=
  and_congr (urlParsed_iff short) (nameParsed_iff short memory)

/-- A URL of a file with a query. -/
def queryUrl : CString := ⟨ascii "http://h/f?q", by decide⟩

/-- A URL whose path has 256 bytes. -/
def longUrl : CString where
  bytes := ascii "http://h/" ++ List.replicate 255 97
  zero_not_mem := by
    rw [List.mem_append, List.mem_replicate]
    decide

theorem urlHandled_iff_query :
    UrlParsed queryUrl ∧ NameParsed queryUrl (fun _ => 0) ↔
      PartsShort queryUrl.bytes ∧ NameEnds queryUrl.bytes (fun _ => 0) :=
  urlHandled_iff (by decide) fun _ => 0

/-- The terminator of a path of 256 bytes is written behind its array, and where
the memory was not zero a byte of it ends the name. -/
theorem longUrl_leaves :
    ¬UrlParsed longUrl ∧ ¬NameParsed queryUrl (fun _ => 120) := by
  constructor
  · rw [urlParsed_iff (by decide +kernel)]
    intro fits
    have bound := fits [104] (47 :: List.replicate 255 97) (by decide +kernel)
    exact absurd bound.2.2 (by decide +kernel)
  · rw [nameParsed_iff (by decide)]
    intro ends
    have zero := ends [104] (ascii "/f?q") (by decide) 2 (by decide)
    exact absurd zero.2 (by decide)

end Http
end UIoT
