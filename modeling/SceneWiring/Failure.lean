import SceneWiring.Json.Node
/-!
# Failures

What stops a whole run. Trouble with a single member is no failure but a diagnostic.
-/

namespace SceneWiring

/-- Why a run stops. -/
inductive Failure where
  /-- A document cannot be read. -/
  | malformed (fault : Json.Fault)
  /-- Two declared types have the same metadata name. -/
  | duplicateType (key : String)
  /-- A type that the settings name is not declared. -/
  | missingType (name : String)
deriving DecidableEq, Repr

/-- The wording of a failure. -/
def Failure.message : Failure → String
  | .malformed _ => "malformed compilation snapshot"
  | .duplicateType key => "duplicate type declaration: " ++ key
  | .missingType name => "can't find well-known type " ++ name ++ " in the compilation"

end SceneWiring
