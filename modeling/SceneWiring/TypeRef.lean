import SceneWiring.Text.Blank
/-!
# Written type names

A type as it is written where it is used: `Ns.Box<int>?`, `global::Godot.Node`, ``Ns.Box`1``. A
question mark at the end marks a nullable type and is no part of the name. The name of the definition
is what stands before the type arguments, and the number of arguments tells definitions of one name
apart.
-/

namespace SceneWiring

/-- A type as it is written at a place of use. -/
structure TypeRef where
  /-- The name, type arguments included, without the mark of a nullable type. -/
  name : String
  /-- The mark of a nullable type is there. -/
  nullable : Bool := false
deriving DecidableEq, Repr, Inhabited

/-- Reads a written type: blanks around it are dropped, and one question mark at the end is taken as
the mark of a nullable type together with the blanks before it. -/
def TypeRef.ofText (text : String) : TypeRef :=
  let trimmed := Text.trimChars text.toList
  if trimmed.getLast? = some '?' then
    ⟨String.ofList (Text.dropBlanksRight trimmed.dropLast), true⟩
  else ⟨String.ofList trimmed, false⟩

/-- The mark of a name that starts at the root of all namespaces. -/
def rootMark : List Char := ['g', 'l', 'o', 'b', 'a', 'l', ':', ':']

/-- A name without one root mark in front. -/
def dropRootMark (name : List Char) : List Char :=
  if rootMark.isPrefixOf name then name.drop rootMark.length else name

/-- The text before the type arguments. -/
def beforeArguments (name : List Char) : List Char := name.takeWhile (· != '<')

/-- The type arguments with their brackets and all that follows, empty when there are none. -/
def argumentsOf (name : List Char) : List Char := name.dropWhile (· != '<')

/-- The name of the definition: no root mark, no type arguments, no blanks before them. -/
def definitionChars (name : List Char) : List Char :=
  let name := dropRootMark name
  if '<' ∈ name then Text.dropBlanksRight (beforeArguments name) else name

/-- The number of commas directly inside the outermost angle brackets, for a text read at a depth of
brackets. Only angle brackets count, and a closing one at depth zero is passed over. -/
def topCommas (depth : Nat) : List Char → Nat
  | [] => 0
  | c :: rest =>
    if c = '<' then topCommas (depth + 1) rest
    else if c = '>' then topCommas (depth - 1) rest
    else if c = ',' ∧ depth = 1 then topCommas depth rest + 1
    else topCommas depth rest

/-- The number of type arguments, or nothing for a name without arguments. -/
def arity? (name : List Char) : Option Nat :=
  if '<' ∈ name then some (topCommas 0 (argumentsOf name) + 1) else none

/-- The name of the definition that a written name refers to. -/
def definitionName (name : String) : String := String.ofList (definitionChars name.toList)

/-- The name of the definition that the type refers to. -/
def TypeRef.definitionName (type : TypeRef) : String := SceneWiring.definitionName type.name

/-- Text before the arguments and arguments make up the name. -/
theorem beforeArguments_append_argumentsOf (name : List Char) :
    beforeArguments name ++ argumentsOf name = name :=
  List.takeWhile_append_dropWhile

/-- One mark in front of a name is passed over. -/
theorem dropRootMark_rootMark_append (name : List Char) : dropRootMark (rootMark ++ name) = name := by
  rw [dropRootMark, if_pos (List.isPrefixOf_iff_prefix.2 (List.prefix_append _ _)), List.drop_left]

/-- What is passed over is the whole mark or nothing. -/
theorem dropRootMark_cases (name : List Char) :
    (¬rootMark <+: name ∧ dropRootMark name = name) ∨
      (rootMark <+: name ∧ name = rootMark ++ dropRootMark name) := by
  by_cases hmark : rootMark <+: name
  · obtain ⟨rest, rfl⟩ := hmark
    rw [dropRootMark_rootMark_append]
    exact .inr ⟨List.prefix_append _ _, rfl⟩
  · rw [dropRootMark, if_neg (mt List.isPrefixOf_iff_prefix.1 hmark)]
    exact .inl ⟨hmark, rfl⟩

/-- What is left is the end of the name. -/
theorem dropRootMark_suffix (name : List Char) : dropRootMark name <:+ name := by
  rcases dropRootMark_cases name with ⟨-, heq⟩ | ⟨-, heq⟩
  · exact ⟨[], heq⟩
  · exact ⟨rootMark, heq.symm⟩

/-- What is left of a name stands in the name. -/
theorem mem_of_mem_dropRootMark {name : List Char} {c : Char} (h : c ∈ dropRootMark name) :
    c ∈ name :=
  (dropRootMark_suffix name).subset h

/-- A name without arguments is the name of its definition, without the mark. -/
theorem definitionChars_of_unapplied {name : List Char} (h : '<' ∉ name) :
    definitionChars name = dropRootMark name :=
  if_neg (mt mem_of_mem_dropRootMark h)

/-- What is no part of the mark is left. -/
theorem mem_dropRootMark {name : List Char} {c : Char} (h : c ∈ name) (hmark : c ∉ rootMark) :
    c ∈ dropRootMark name := by
  rcases dropRootMark_cases name with ⟨-, heq⟩ | ⟨-, heq⟩
  · rwa [heq]
  · rw [heq] at h
    exact (List.mem_append.1 h).resolve_left hmark

/-- Nothing is passed over exactly when the name does not start with the mark. -/
theorem dropRootMark_eq_self_iff {name : List Char} :
    dropRootMark name = name ↔ ¬rootMark <+: name := by
  rcases dropRootMark_cases name with ⟨hmark, heq⟩ | ⟨hmark, heq⟩
  · exact iff_of_true heq hmark
  · refine iff_of_false (fun hself => ?_) (not_not_intro hmark)
    have hlength := congrArg List.length heq
    rw [hself, List.length_append, rootMark] at hlength
    simp at hlength

end SceneWiring
