/-!
# Source locations

A place in a source file, as diagnostics show it.
-/

namespace SceneWiring

/-- A place in a source file. -/
structure Location where
  /-- The file, empty when it is not known. -/
  file : String := ""
  /-- The line. -/
  line : Nat := 0
  /-- The column. -/
  column : Nat := 0
deriving DecidableEq, Repr, Inhabited

/-- File, line and column between colons. -/
def Location.render (l : Location) : String :=
  (if l.file = "" then "<unknown>" else l.file) ++ ":" ++ toString l.line ++ ":" ++
    toString l.column

end SceneWiring
