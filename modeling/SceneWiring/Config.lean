import SceneWiring.Json.Decode
import SceneWiring.Json.Print
/-!
# Settings

The settings of a run, how they are read from JSON, and how a second document is laid over them. An
overlay that is an object sets the keys it names and keeps the others. Any other overlay is read as
settings in their own right.
-/

namespace SceneWiring

open Json

/-- The settings of a run. -/
structure Config where
  /-- The full name of the root of all types that are fetched by path. -/
  nodeType : String := "Godot.Node"
  /-- The full name of the root of all types that are loaded as resources. -/
  resourceType : String := "Godot.Resource"
  /-- The namespaces that every generated unit opens. -/
  usings : List String := ["Godot", "System"]
  /-- The method that the lifecycle statements go into. -/
  lifecycleMethod : String := "_Ready"
  /-- An expression that is true inside the editor. -/
  editorHint : String := "Engine.EditorHint"
  /-- The first line of every generated unit; none when empty. -/
  header : String := "// <auto-generated />"
deriving DecidableEq, Repr, Inhabited

namespace Config

/-- The fields of written settings, in order. -/
def jsonFields : List (Json.Field Config) :=
  [optionalField "node_type" Decoder.text fun v c => { c with nodeType := v },
   optionalField "resource_type" Decoder.text fun v c => { c with resourceType := v },
   optionalField "usings" (Decoder.list Decoder.text) fun v c => { c with usings := v },
   optionalField "lifecycle_method" Decoder.text fun v c => { c with lifecycleMethod := v },
   optionalField "editor_hint" Decoder.text fun v c => { c with editorHint := v },
   optionalField "header" Decoder.text fun v c => { c with header := v }]

/-- Written settings; what is not given keeps its default. -/
def decoder : Decoder Config := Decoder.record {} jsonFields

/-- Settings read from a document. -/
def ofDocument (document : Document) : Except Fault Config := document.read decoder

/-- The settings as they are written, in order. -/
def written (c : Config) : List (String × Node) :=
  [("node_type", .string c.nodeType), ("resource_type", .string c.resourceType),
   ("usings", .texts c.usings), ("lifecycle_method", .string c.lifecycleMethod),
   ("editor_hint", .string c.editorHint), ("header", .string c.header)]

/-- Settings with a document laid over them. The whole document has to be well read first. The values
that an object names are set among those of the settings, and the settings are read from what comes of
it. -/
def overlay (config : Config) (document : Document) : Except Fault Config := do
  let node ← document.read Node.wellRead
  match node with
  | .object given _ => do
    let named ← addEntries Decoder.value documentRoom [] given
    decoder documentRoom (.struct (extend (extend [] config.written) named))
  | .array items ending => readPositional .misfit documentRoom jsonFields {} items ending
  | other => .error other.misfitFault

/-- The last value under a key: the one that counts where a key is repeated. -/
def lastValue? (key : String) : List (Quoted × Node) → Option Node
  | [] => none
  | (k, node) :: rest =>
    match lastValue? key rest with
    | some later => some later
    | none =>
      match k.content with
      | .ok content => if content = key then some node else none
      | .error _ => none

end Config

end SceneWiring
