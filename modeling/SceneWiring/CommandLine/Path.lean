/-!
# Paths

A path is a text of parts between slashes. It starts at the root when it starts with a slash, and
otherwise in the working folder. Empty parts count for nothing.
-/

namespace SceneWiring.CommandLine

/-- A path taken apart. -/
structure Path where
  /-- The path starts at the root. -/
  absolute : Bool
  /-- The parts that are not empty. -/
  parts : List String
  /-- A slash stands at the end, after a part. -/
  slashed : Bool
deriving DecidableEq, Repr

/-- The texts between slashes. -/
def splitSlashes : List Char → List (List Char)
  | [] => [[]]
  | c :: rest =>
    if c = '/' then [] :: splitSlashes rest
    else
      match splitSlashes rest with
      | [] => [[c]]
      | part :: parts => (c :: part) :: parts

namespace Path

/-- Takes a path apart. -/
def ofText (text : String) : Path :=
  let chars := text.toList
  let parts := (splitSlashes chars).filter (!·.isEmpty)
  ⟨chars.head? == some '/', parts.map String.ofList, chars.getLast? == some '/'⟩

/-- Puts a path together. -/
def render (p : Path) : String :=
  (if p.absolute then "/" else "") ++ "/".intercalate p.parts ++
    (if p.slashed && !p.parts.isEmpty then "/" else "")

/-- Parts without the dots at their end, except for a dot that starts a path in the working
folder. -/
def dropDots (absolute : Bool) (parts : List String) : List String :=
  match absolute, parts with
  | false, "." :: rest => "." :: (rest.reverse.dropWhile (· == ".")).reverse
  | _, parts => (parts.reverse.dropWhile (· == ".")).reverse

/-- The path without its last part. The root has no parent, nor has the empty path. -/
def parent? (p : Path) : Option Path :=
  match dropDots p.absolute p.parts with
  | [] => none
  | part :: parts => some ⟨p.absolute, dropDots p.absolute (part :: parts).dropLast, false⟩

end Path

/-- The path of a name in a folder. -/
def joinPath (folder name : String) : String :=
  if folder.toList.getLast? = some '/' then folder ++ name else folder ++ "/" ++ name

end SceneWiring.CommandLine
