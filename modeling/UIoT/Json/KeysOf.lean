import UIoT.Json.Robustness
import UIoT.Json.Brackets

/-!
# Listing the keys of a document

`LITE_json_keys_of` goes through the members of an object and calls itself for
those that are objects, with a copy of the object and the path in front of its
keys.  Copies and paths go through `LITE_format_string`, which keeps what fits
into a buffer of 512 bytes.
-/

namespace UIoT
namespace Json

open JsonSyntax

/-! ## The functions -/

/-- `TEMP_STRING_MAXLEN` -/
def tempStringMaxlen : Nat := 512

/-- `LITE_strdup` where its allocation succeeds. -/
def liteStrdup (src : List UInt8) : Option (List UInt8) :=
  if 1024 < src.length + 1 then none else some src

/-- `LITE_format_string` where its allocations succeed: `text` is what its
format and arguments come to.  `LITE_ASSERT` only prints, as it does wherever
`_PLATFORM_IS_LINUX_` is not defined. -/
def liteFormatString (text : List UInt8) : Option (List UInt8) :=
  liteStrdup (text.take (tempStringMaxlen - 1))

/-- The keys of the static `keylist`; the entry that ends it has none. -/
abbrev KeyList := List (Option (List UInt8))

/-- `json_key_t` entries are added to the tail of the list. -/
def listAddTail (keylist : KeyList) (key : Option (List UInt8)) : KeyList :=
  keylist ++ [key]

/-- What `%.*s` prints of a slice. -/
def sliceText (str : CharPtr) (len : Nat) : List UInt8 :=
  (cString str).take len

/-- The body of the loop of `LITE_json_keys_of`; `behind` is what lies in memory
behind a string that was allocated. -/
def addKey (behind : List UInt8 → CharPtr)
    (keysOf : Option CharPtr → Option (List UInt8) → KeyList → Option KeyList)
    (pre : List UInt8) (keylist : KeyList) (entry : Entry) : Option KeyList :=
  if entry.reported then
    let key := sliceText entry.key entry.keyLen
    let keylist := listAddTail keylist (liteFormatString (pre ++ key))
    if entry.valType = .object then
      let iterVal := liteFormatString (sliceText entry.val entry.valLen)
      let iterPre := liteFormatString (pre ++ key ++ [46])
      keysOf (iterVal.map fun text => text ++ 0 :: behind text) iterPre keylist
    else some keylist
  else some keylist

/-- `LITE_json_keys_of` where its allocations succeed: what the static list is
afterwards, if calls inside one another up to `depth` are enough.  A call with
an empty prefix returns the list. -/
def liteJsonKeysOf (behind : List UInt8 → CharPtr) : (depth : Nat) →
    (src : Option CharPtr) → (pre : Option (List UInt8)) → KeyList →
    Option KeyList
  | 0, _, _, _ => none
  | depth + 1, some src, some pre, keylist =>
      let keylist := if pre = [] then [] else keylist
      let filled := (jsonObjectForEachKv src).foldlM
        (addKey behind (liteJsonKeysOf behind depth) pre) keylist
      filled.map fun keylist =>
        if pre = [] then listAddTail keylist none else keylist
  | _ + 1, _, _, keylist => some keylist

/-! ## What a call adds -/

/-- A text as it is kept in the buffer. -/
def kept (text : List UInt8) : List UInt8 := text.take (tempStringMaxlen - 1)

theorem liteFormatString_eq (text : List UInt8) :
    liteFormatString text = some (kept text) := by
  have short : ¬1024 < (kept text).length + 1 := by
    rw [kept, List.length_take, tempStringMaxlen]
    omega
  exact if_neg short

theorem kept_of_le {text : List UInt8}
    (short : text.length < tempStringMaxlen) : kept text = text :=
  List.take_of_length_le (Nat.le_pred_of_lt short)

theorem length_kept (text : List UInt8) :
    (kept text).length < tempStringMaxlen := by
  rw [kept, List.length_take]
  exact Nat.lt_of_le_of_lt (Nat.min_le_left _ _) (by decide)

/-- What is kept of a text is kept of a longer one. -/
theorem kept_kept_append (text more : List UInt8) :
    kept (kept text ++ more) = kept (text ++ more) := by
  unfold kept
  rw [List.take_append, List.take_append, List.take_take, Nat.min_self,
    List.length_take]
  congr 2
  omega

theorem kept_ne_nil {text : List UInt8} (nonempty : text ≠ []) :
    kept text ≠ [] := by
  cases text with
  | nil => exact absurd rfl nonempty
  | cons byte text => exact List.cons_ne_nil byte (text.take 510)

/-- What the body of the loop reads of an entry: the key, and the text of an
object. -/
abbrev SeenKey := List UInt8 × Option (List UInt8)

def Entry.seenKey (entry : Entry) : SeenKey :=
  (sliceText entry.key entry.keyLen,
    if entry.valType = .object then some (sliceText entry.val entry.valLen)
    else none)

/-- What the loop reads of the entries it does not pass over. -/
def seenKeys (entries : List Entry) : List SeenKey :=
  (entries.filter Entry.reported).map Entry.seenKey

/-- What the loop reads of a string. -/
def keysSeen (src : CharPtr) : List SeenKey :=
  seenKeys (jsonObjectForEachKv src)

/-- The keys added for an entry. -/
def addedFor (behind : List UInt8 → CharPtr)
    (added : CharPtr → List UInt8 → Option (List (List UInt8)))
    (pre : List UInt8) (seen : SeenKey) : Option (List (List UInt8)) :=
  match seen.2 with
  | none => some [kept (pre ++ seen.1)]
  | some text =>
      (added (kept text ++ 0 :: behind (kept text))
        (kept (pre ++ seen.1 ++ [46]))).map (kept (pre ++ seen.1) :: ·)

/-- The keys added for entries one behind the other. -/
def addedForAll (behind : List UInt8 → CharPtr)
    (added : CharPtr → List UInt8 → Option (List (List UInt8)))
    (pre : List UInt8) : List SeenKey → Option (List (List UInt8))
  | [] => some []
  | seen :: rest =>
      (addedFor behind added pre seen).bind fun keys =>
        (addedForAll behind added pre rest).map (keys ++ ·)

/-- The keys a call adds to the list. -/
def added (behind : List UInt8 → CharPtr) : (depth : Nat) → (src : CharPtr) →
    (pre : List UInt8) → Option (List (List UInt8))
  | 0, _, _ => none
  | depth + 1, src, pre =>
      addedForAll behind (added behind depth) pre (keysSeen src)

/-- Keys are added for entries one behind the other. -/
theorem addedForAll_append {behind : List UInt8 → CharPtr}
    {adds : CharPtr → List UInt8 → Option (List (List UInt8))}
    {pre : List UInt8} {first second : List SeenKey}
    {keys : List (List UInt8)} :
    addedForAll behind adds pre (first ++ second) = some keys ↔
      ∃ own others, addedForAll behind adds pre first = some own ∧
        addedForAll behind adds pre second = some others ∧
        keys = own ++ others := by
  induction first generalizing keys with
  | nil => simp [addedForAll, eq_comm]
  | cons seen first inductionHypothesis =>
      rw [List.cons_append, addedForAll, addedForAll]
      cases addedFor behind adds pre seen with
      | none => simp
      | some own =>
          simp only [Option.bind_some, Option.map_eq_some_iff,
            inductionHypothesis]
          constructor
          · rintro ⟨_, ⟨inner, others, added, rest, rfl⟩, rfl⟩
            exact ⟨own ++ inner, others, ⟨inner, added, rfl⟩, rest,
              (List.append_assoc ..).symm⟩
          · rintro ⟨_, others, ⟨inner, added, rfl⟩, rest, rfl⟩
            exact ⟨inner ++ others, ⟨inner, others, added, rest, rfl⟩,
              (List.append_assoc ..).symm⟩

theorem addedForAll_mono {behind : List UInt8 → CharPtr}
    {adds more : CharPtr → List UInt8 → Option (List (List UInt8))}
    (grows : ∀ src pre keys, adds src pre = some keys →
      more src pre = some keys)
    {pre : List UInt8} {seen : List SeenKey} {keys : List (List UInt8)}
    (found : addedForAll behind adds pre seen = some keys) :
    addedForAll behind more pre seen = some keys := by
  induction seen generalizing keys with
  | nil => exact found
  | cons first seen inductionHypothesis =>
      rw [addedForAll, Option.bind_eq_some_iff] at found ⊢
      obtain ⟨own, first_found, found⟩ := found
      obtain ⟨others, rest_found, rfl⟩ := Option.map_eq_some_iff.mp found
      refine ⟨own, ?_, by rw [inductionHypothesis rest_found]; rfl⟩
      unfold addedFor at first_found ⊢
      cases nested : first.2 with
      | none =>
          rw [nested] at first_found
          exact first_found
      | some text =>
          rw [nested] at first_found
          obtain ⟨inner, deeper, rfl⟩ := Option.map_eq_some_iff.mp first_found
          dsimp only
          rw [grows _ _ _ deeper, Option.map_some]

/-- More calls inside one another do not change what is added. -/
theorem added_mono {behind : List UInt8 → CharPtr} {depth deeper : Nat}
    (le : depth ≤ deeper) {src : CharPtr} {pre : List UInt8}
    {keys : List (List UInt8)}
    (found : added behind depth src pre = some keys) :
    added behind deeper src pre = some keys := by
  induction depth generalizing deeper src pre keys with
  | zero => cases found
  | succ depth inductionHypothesis =>
      cases deeper with
      | zero => exact absurd le (Nat.not_succ_le_zero depth)
      | succ deeper =>
          exact addedForAll_mono (fun src pre keys =>
            inductionHypothesis (Nat.le_of_succ_le_succ le)) found

/-- The loop adds to the list what is added for each entry. -/
theorem foldlM_addKey {behind : List UInt8 → CharPtr}
    {keysOf : Option CharPtr → Option (List UInt8) → KeyList → Option KeyList}
    {adds : CharPtr → List UInt8 → Option (List (List UInt8))}
    (agrees : ∀ src pre keylist, pre ≠ [] →
      keysOf (some src) (some pre) keylist =
        (adds src pre).map fun keys => keylist ++ keys.map some)
    (pre : List UInt8) (entries : List Entry) (keylist : KeyList) :
    entries.foldlM (addKey behind keysOf pre) keylist =
      (addedForAll behind adds pre (seenKeys entries)).map fun keys =>
        keylist ++ keys.map some := by
  induction entries generalizing keylist with
  | nil => simp [seenKeys, addedForAll]
  | cons entry entries inductionHypothesis =>
      rw [List.foldlM_cons]
      by_cases reported : entry.reported = true
      · have one : addKey behind keysOf pre keylist entry =
            (addedFor behind adds pre entry.seenKey).map fun keys =>
              keylist ++ keys.map some := by
          rw [addKey, if_pos reported]
          unfold addedFor Entry.seenKey listAddTail
          by_cases object : entry.valType = .object
          · have deeper : kept (pre ++ sliceText entry.key entry.keyLen ++
                [46]) ≠ [] := kept_ne_nil (by simp)
            simp only [object, if_true, liteFormatString_eq, Option.map_some]
            rw [agrees _ _ _ deeper, Option.map_map]
            congr 1
            funext keys
            simp
          · simp only [object, if_false, liteFormatString_eq, Option.map_some,
              List.map_cons, List.map_nil]
        have seen : seenKeys (entry :: entries) =
            entry.seenKey :: seenKeys entries := by
          simp [seenKeys, reported]
        rw [one, seen, addedForAll]
        cases addedFor behind adds pre entry.seenKey with
        | none => rfl
        | some keys =>
            simp only [Option.map_some, Option.bind_eq_bind,
              Option.bind_some, inductionHypothesis]
            cases addedForAll behind adds pre (seenKeys entries) with
            | none => rfl
            | some others => simp
      · have passed : addKey behind keysOf pre keylist entry =
            some keylist := by
          rw [addKey, if_neg reported]
        have seen : seenKeys (entry :: entries) = seenKeys entries := by
          simp [seenKeys, reported]
        rw [passed, seen]
        exact inductionHypothesis keylist

/-- A call inside another adds its keys to the list. -/
theorem liteJsonKeysOf_inside (behind : List UInt8 → CharPtr) (depth : Nat)
    (src : CharPtr) (pre : List UInt8) (keylist : KeyList)
    (inside : pre ≠ []) :
    liteJsonKeysOf behind depth (some src) (some pre) keylist =
      (added behind depth src pre).map fun keys =>
        keylist ++ keys.map some := by
  induction depth generalizing src pre keylist with
  | zero => rfl
  | succ depth inductionHypothesis =>
      rw [liteJsonKeysOf, added, foldlM_addKey inductionHypothesis]
      simp only [if_neg inside, Option.map_map]
      rfl

/-- The outermost call makes a new list of its keys. -/
theorem liteJsonKeysOf_outermost (behind : List UInt8 → CharPtr) (depth : Nat)
    (src : CharPtr) (keylist : KeyList) :
    liteJsonKeysOf behind depth (some src) (some []) keylist =
      (added behind depth src []).map fun keys =>
        keys.map some ++ [none] := by
  cases depth with
  | zero => rfl
  | succ depth =>
      rw [liteJsonKeysOf, added,
        foldlM_addKey (liteJsonKeysOf_inside behind depth)]
      simp only [if_true, Option.map_map]
      rfl

end Json
end UIoT
