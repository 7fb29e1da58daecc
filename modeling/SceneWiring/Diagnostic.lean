import SceneWiring.Annotation
import SceneWiring.Json.Print
/-!
# Diagnostics

What is reported about a program. A cause of trouble determines code, severity and wording of its
diagnostic. Warnings never make a run fail, errors do.
-/

namespace SceneWiring

/-- How serious a diagnostic is. -/
inductive Severity where
  | warning
  | error
deriving DecidableEq, Repr, Inhabited

/-- The word for a severity. -/
def Severity.word : Severity → String
  | .warning => "warning"
  | .error => "error"

/-- A report. -/
structure Diagnostic where
  /-- The code of the kind of trouble. -/
  code : String
  /-- How serious it is. -/
  severity : Severity
  /-- The wording. -/
  message : String
  /-- The place it is about. -/
  location? : Option Location
deriving DecidableEq, Repr, Inhabited

namespace Diagnostic

/-- The category of all diagnostics. -/
def category : String := "OnReadyGen.Parsing"

/-- The diagnostic is an error. -/
def isError (d : Diagnostic) : Bool := d.severity == .error

/-- The line that shows a diagnostic. -/
def render (d : Diagnostic) : String :=
  (match d.location? with
    | some l => l.render ++ ": "
    | none => "") ++
    d.severity.word ++ "[" ++ d.code ++ "]: " ++ d.message

/-- The JSON form of a location. -/
def locationNode (l : Location) : Json.Node :=
  .struct [("file", .string l.file), ("line", .natural l.line), ("column", .natural l.column)]

/-- The JSON form of a diagnostic. -/
def node (d : Diagnostic) : Json.Node :=
  .struct
    [("code", .string d.code), ("category", .string category),
     ("severity", .string d.severity.word), ("message", .string d.message),
     ("location", (d.location?.map locationNode).getD .null)]

/-- Some diagnostic of the list is an error. -/
def hasErrors (ds : List Diagnostic) : Bool := ds.any isError

/-- The number of errors in the list. -/
def errorCount (ds : List Diagnostic) : Nat := ds.countP isError

/-- The indented JSON form of a list of diagnostics. -/
def renderJson (ds : List Diagnostic) : String := (Json.Node.list (ds.map node)).renderIndented 0

end Diagnostic

/-- What is wrong. -/
inductive Cause where
  /-- A class met in the source is not declared. -/
  | unresolvedClass (name : String)
  /-- The type of the member is neither a node nor a resource. -/
  | unsupportedType (member type node resource : String)
  /-- The type of the member is both a node and a resource. -/
  | ambiguousType (member type node resource : String)
  /-- The ancestor has no member of the type. -/
  | noSource (type ancestor member : String)
  /-- The ancestor has several members of the type. -/
  | manySources (type ancestor member : String) (found : List String)
  /-- The method takes parameters. -/
  | takesParameters (method : String) (count : Nat)
  /-- The annotation stands on the wrong thing. -/
  | misplaced (kind : AnnotationKind) (target : Target) (name : String)
  /-- The type of the member is no node. -/
  | findNeedsNode (member type node : String)
  /-- The type of the ancestor is not declared. -/
  | unresolvedAncestor (type member : String)
  /-- The enumeration has no name. -/
  | enumWithoutName (className : String)
  /-- The class is nested in another type. -/
  | nestedClass (className enclosing : String)
  /-- The class of the enumeration is generic. -/
  | enumOnGeneric (className : String)
  /-- The companion of the member is already there. -/
  | companionClash (member companion holder : String)
deriving DecidableEq, Repr

namespace Cause

/-- The code of a cause. -/
def code : Cause → String
  | .unresolvedClass _ => "ORG0001"
  | .unsupportedType _ _ _ _ => "ORG0002"
  | .ambiguousType _ _ _ _ => "ORG0003"
  | .noSource _ _ _ => "ORG0004"
  | .manySources _ _ _ _ => "ORG0005"
  | .takesParameters _ _ => "ORG0006"
  | .misplaced _ _ _ => "ORG0007"
  | .findNeedsNode _ _ _ => "ORG0008"
  | .unresolvedAncestor _ _ => "ORG0009"
  | .enumWithoutName _ => "ORG0010"
  | .nestedClass _ _ => "ORG0011"
  | .enumOnGeneric _ => "ORG0012"
  | .companionClash _ _ _ => "ORG0013"

/-- The severity of a cause. -/
def severity : Cause → Severity
  | .unresolvedClass _ | .misplaced _ _ _ | .nestedClass _ _ => .warning
  | _ => .error

/-- The words for what an annotation stands on. -/
def targetWords : Target → String
  | .member => "field or property"
  | .method => "method"
  | .type => "class"

/-- The wording of a cause. -/
def message : Cause → String
  | .unresolvedClass name => "Unable to find declared symbol for " ++ name ++ ". Skipping."
  | .unsupportedType member type node resource =>
    member ++ " is not a supported type: " ++ type ++ ". Expected a " ++ node ++ " or " ++
      resource ++ " subclass."
  | .ambiguousType member type node resource =>
    member ++ " has type " ++ type ++ " which is both a " ++ node ++ " and a " ++ resource ++
      "; can't pick a fetch strategy."
  | .noSource type ancestor member =>
    "No field or property of type \"" ++ type ++ "\" found in injection source \"" ++ ancestor ++
      "\" for " ++ member ++ ". Expected exactly one."
  | .manySources type ancestor member found =>
    "Multiple members of type \"" ++ type ++ "\" found in injection source \"" ++ ancestor ++
      "\" for " ++ member ++ ", but expected exactly one. Found: " ++ ", ".intercalate found
  | .takesParameters method count =>
    "[OnReady] method '" ++ method ++ "' takes " ++ toString count ++
      " parameter(s); expected none."
  | .misplaced kind target name =>
    "[" ++ kind.name ++ "] cannot be applied to " ++ targetWords target ++ " '" ++ name ++
      "'; ignored."
  | .findNeedsNode member type node =>
    member ++ " is not a supported type for [OnReadyFind]: " ++ type ++ ". Expected a " ++ node ++
      " subclass, or set Property."
  | .unresolvedAncestor type member =>
    "Can't resolve ancestor type '" ++ type ++ "' for injected member " ++ member ++ "."
  | .enumWithoutName className =>
    "[GenerateDataSelectorEnum] on '" ++ className ++ "' needs a non-empty enum name."
  | .nestedClass className enclosing =>
    className ++ " is nested inside " ++ enclosing ++
      "; nested classes are not generated. Skipping."
  | .enumOnGeneric className =>
    "[GenerateDataSelectorEnum] is not supported on generic class '" ++ className ++ "'."
  | .companionClash member companion holder =>
    member ++ " would generate '" ++ companion ++ "', which " ++ holder ++
      " already generates. Rename one of the members."

/-- The diagnostic of a cause at a place. -/
def diagnosticAt (cause : Cause) (location : Location) : Diagnostic :=
  ⟨cause.code, cause.severity, cause.message, some location⟩

end Cause

end SceneWiring
