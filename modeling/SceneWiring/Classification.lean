import SceneWiring.Config
import SceneWiring.Hierarchy
/-!
# Classification of member types

The type of a member decides how its value is fetched: types under the configured node type by path,
types under the configured resource type by loading. A type parameter counts as the types that
constrain it.
-/

namespace SceneWiring

/-- The declared types that the settings name. -/
structure HostTypes (c : Compilation) (config : Config) where
  /-- The root of the types fetched by path. -/
  node : TypeDecl
  /-- The root of the types loaded as resources. -/
  resource : TypeDecl
  /-- The settings name the first root. -/
  lookup_node : c.lookup config.nodeType = some node
  /-- The settings name the second root. -/
  lookup_resource : c.lookup config.resourceType = some resource

/-- The declared type of a name that has to be there. -/
def Compilation.require (c : Compilation) (name : String) :
    Except Failure { d : TypeDecl // c.lookup name = some d } :=
  match c.lookup name with
  | some d => .ok ⟨d, rfl⟩
  | none => .error (.missingType name)

/-- The host types of a compilation under some settings. -/
def HostTypes.find (c : Compilation) (config : Config) : Except Failure (HostTypes c config) := do
  let node ← c.require config.nodeType
  let resource ← c.require config.resourceType
  return ⟨node, resource, node.property, resource.property⟩

/-- How values of a type are fetched. -/
inductive Classification where
  | path
  | resource
  /-- Neither way. -/
  | unsupported
  /-- Both ways. -/
  | ambiguous
deriving DecidableEq, Repr, Inhabited

/-- The classification of a type of which it is known which roots it reaches. -/
def Classification.ofRoots (isNode isResource : Bool) : Classification :=
  match isNode, isResource with
  | true, false => .path
  | false, true => .resource
  | false, false => .unsupported
  | true, true => .ambiguous

/-- What decisions about a class depend on. -/
structure Context where
  /-- The program. -/
  compilation : Compilation
  /-- The settings. -/
  config : Config
  /-- The declared types that the settings name. -/
  host : HostTypes compilation config

namespace Context

/-- The declared types that stand for a written type inside a class: those of its constraints for a
type parameter of the class, else the one it denotes. -/
def candidates (x : Context) (owner : TypeDecl) (type : TypeRef) : List TypeDecl :=
  match owner.typeParameter? type.definitionName with
  | some p => p.constraints.filterMap x.compilation.resolve
  | none => (x.compilation.resolve type).toList

/-- How a written type is fetched inside a class. -/
def classify (x : Context) (owner : TypeDecl) (type : TypeRef) : Classification :=
  let candidates := x.candidates owner type
  .ofRoots (candidates.any (x.compilation.derivesFrom · x.host.node))
    (candidates.any (x.compilation.derivesFrom · x.host.resource))

/-- A value of the first type can be assigned to the second: the first is or derives from the
second, or neither is declared and their definitions have the same name. -/
def assignable (x : Context) (source target : TypeRef) : Bool :=
  match x.compilation.resolve source, x.compilation.resolve target with
  | some s, some t => x.compilation.derivesFrom s t
  | none, none => source.definitionName == target.definitionName
  | _, _ => false

end Context

end SceneWiring
