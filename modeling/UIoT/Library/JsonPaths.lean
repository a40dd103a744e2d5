import UIoT.Library.JsonSyntax

/-!
# Paths of names in a document

The members of an object and of the objects in it, each by the names that lead
to it, in the order of the document.  A member whose value is an empty string is
left out, and so is what stands in an array.
-/

namespace JsonSyntax

/-! ## Strings and keys -/

mutual

/-- The strings in a value, the keys among them. -/
def Value.strings : Value → List (List StringItem)
  | .string items => [items]
  | .number _ => []
  | .literal _ => []
  | .array _ elements => elementsStrings elements
  | .object _ members => membersStrings members

def elementsStrings : List (Element Value) → List (List StringItem)
  | [] => []
  | element :: rest => elementStrings element ++ elementsStrings rest

def elementStrings : Element Value → List (List StringItem)
  | ⟨value, _, _⟩ => value.strings

def membersStrings : List (Member Value) → List (List StringItem)
  | [] => []
  | member :: rest => memberStrings member ++ membersStrings rest

def memberStrings : Member Value → List (List StringItem)
  | ⟨key, _, _, value, _, _⟩ => key :: value.strings

end

mutual

/-- The keys in a value. -/
def Value.keys : Value → List (List StringItem)
  | .array _ elements => elementsKeys elements
  | .object _ members => membersKeys members
  | _ => []

def elementsKeys : List (Element Value) → List (List StringItem)
  | [] => []
  | element :: rest => elementKeys element ++ elementsKeys rest

def elementKeys : Element Value → List (List StringItem)
  | ⟨value, _, _⟩ => value.keys

def membersKeys : List (Member Value) → List (List StringItem)
  | [] => []
  | member :: rest => memberKeys member ++ membersKeys rest

def memberKeys : Member Value → List (List StringItem)
  | ⟨key, _, _, value, _, _⟩ => key :: value.keys

end

mutual

/-- The strings in the arrays of a value. -/
def Value.arrayStrings : Value → List (List StringItem)
  | .array _ elements => elementsStrings elements
  | .object _ members => membersArrayStrings members
  | _ => []

def membersArrayStrings : List (Member Value) → List (List StringItem)
  | [] => []
  | member :: rest => memberArrayStrings member ++ membersArrayStrings rest

def memberArrayStrings : Member Value → List (List StringItem)
  | ⟨_, _, _, value, _, _⟩ => value.arrayStrings

end

theorem memberStrings_eq (member : Member Value) :
    memberStrings member = member.key :: member.value.strings := by
  cases member
  rw [memberStrings]

theorem memberKeys_eq (member : Member Value) :
    memberKeys member = member.key :: member.value.keys := by
  cases member
  rw [memberKeys]

theorem memberArrayStrings_eq (member : Member Value) :
    memberArrayStrings member = member.value.arrayStrings := by
  cases member
  rw [memberArrayStrings]

/-! ## Paths -/

mutual

/-- The paths of names to the members inside a value, parents first. -/
def Value.paths : Value → List (List (List UInt8))
  | .object _ members => membersPaths members
  | _ => []

def membersPaths : List (Member Value) → List (List (List UInt8))
  | [] => []
  | member :: rest => memberPaths member ++ membersPaths rest

/-- The paths to a member and to those inside it. -/
def memberPaths : Member Value → List (List (List UInt8))
  | ⟨key, _, _, value, _, _⟩ =>
      if value.content = [] then []
      else [stringValue key] :: value.paths.map (stringValue key :: ·)

end

theorem memberPaths_eq (member : Member Value) :
    memberPaths member =
      if member.value.content = [] then []
      else [stringValue member.key] ::
        member.value.paths.map (stringValue member.key :: ·) := by
  cases member
  rw [memberPaths]

/-- A path written with dots between its names. -/
def dotted (path : List (List UInt8)) : List UInt8 := [46].intercalate path

@[simp] theorem dotted_singleton (name : List UInt8) :
    dotted [name] = name := by
  simp [dotted, List.intercalate]

theorem dotted_cons (name : List UInt8) {path : List (List UInt8)}
    (nonempty : path ≠ []) :
    dotted (name :: path) = name ++ 46 :: dotted path := by
  cases path with
  | nil => exact absurd rfl nonempty
  | cons next rest => simp [dotted, List.intercalate]

theorem membersPaths_eq (members : List (Member Value)) :
    membersPaths members = members.flatMap memberPaths := by
  induction members with
  | nil => rfl
  | cons member rest inductionHypothesis =>
      rw [membersPaths, inductionHypothesis, List.flatMap_cons]

/-- No path is empty. -/
theorem Value.paths_ne_nil {value : Value} {path : List (List UInt8)}
    (mem : path ∈ value.paths) : path ≠ [] := by
  cases value with
  | object gap members =>
      rw [Value.paths, membersPaths_eq] at mem
      obtain ⟨member, -, mem⟩ := List.mem_flatMap.mp mem
      rw [memberPaths_eq] at mem
      split at mem
      · cases mem
      rcases List.mem_cons.mp mem with rfl | inside
      · exact List.cons_ne_nil _ _
      · obtain ⟨tail, -, rfl⟩ := List.mem_map.mp inside
        exact List.cons_ne_nil _ _
  | _ => cases mem

end JsonSyntax
