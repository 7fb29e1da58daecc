import SceneWiring.Addition
import SceneWiring.Config
import SceneWiring.Declaration
/-!
# Generated units

The additions of all classes are grouped by class, and each group becomes one unit: a partial
declaration of the class with the code of its additions. Declarations come in the order of discovery;
the statements of the constructor and of the lifecycle method come in ascending order.
-/

namespace SceneWiring

/-- The additions of one class. -/
structure ClassUnit where
  /-- The position of the class in the list of types. -/
  owner : Nat
  /-- The additions, in order of discovery. -/
  additions : List Addition
deriving DecidableEq, Repr, Inhabited

/-- A generated text and the name it goes by. -/
structure GeneratedUnit where
  /-- The name of the unit. -/
  hintName : String
  /-- The text of the unit. -/
  text : String
deriving DecidableEq, Repr, Inhabited

/-- An ascending list of numbers with one more number in it. -/
def insertOwner (n : Nat) : List Nat → List Nat
  | [] => [n]
  | m :: rest =>
    if n < m then n :: m :: rest else if n = m then m :: rest else m :: insertOwner n rest

/-- The classes that additions are for, in ascending order, each once. -/
def owners (additions : List Addition) : List Nat :=
  additions.foldr (fun a ns => insertOwner a.owner ns) []

namespace ClassUnit

/-- The additions grouped by class. -/
def group (additions : List Addition) : List ClassUnit :=
  (owners additions).map fun owner =>
    ⟨owner, sortBy Addition.seqLe (additions.filter (·.owner == owner))⟩

/-- The additions in the order of their statements. -/
def ordered (u : ClassUnit) : List Addition := sortBy Addition.orderLe u.additions

/-- The name of the unit of a class: its namespace with underscores for dots, its name, and for a
generic class a backtick and the number of its parameters. -/
def hintName (owner : TypeDecl) : String :=
  let spaceName := String.ofList ((owner.namespaceName?.getD "").toList.map fun c =>
    if c = '.' then '_' else c)
  TypeDecl.withArity ("Partial_" ++ spaceName ++ "_" ++ owner.name) owner.typeParameters.length

/-- The constructor with the statements of some fragments, and the hook it calls in the end. -/
def constructorSection (owner : TypeDecl) (fragments : List (List Code)) : Option (List Code) :=
  if fragments.isEmpty then none
  else some
    [.line ["public ", owner.name, "()"],
     .block (fragments.map .fragment ++ [.line ["Constructor();"]]),
     .blank,
     .line ["partial void Constructor();"]]

/-- The lifecycle method with the statements of some fragments, each after a blank line. -/
def lifecycleSection (config : Config) (fragments : List (List Code)) : Option (List Code) :=
  if fragments.isEmpty then none
  else some
    [.line ["public override void ", config.lifecycleMethod, "()"],
     .block (.line ["base.", config.lifecycleMethod, "();"] ::
      fragments.flatMap fun f => [.blank, .fragment f])]

/-- The sections of the class body: each declaration, the constructor, the lifecycle method. -/
def sections (config : Config) (owner : TypeDecl) (u : ClassUnit) : List (List Code) :=
  ((u.additions.filterMap (·.strategy.declaration)).map fun f => [.fragment f]) ++
    (constructorSection owner (u.ordered.filterMap (·.strategy.constructorPart))).toList ++
    (lifecycleSection config (u.ordered.filterMap (·.strategy.lifecycle))).toList

/-- The class and what comes after it. The sections of the body stand apart by blank lines. -/
def classCode (config : Config) (owner : TypeDecl) (u : ClassUnit) : List Code :=
  [.line ["public partial class ", owner.declaredName],
   .block ([.blank].intercalate (u.sections config owner))] ++
    (u.additions.filterMap (·.strategy.outside)).flatMap fun f => [.blank, .fragment f]

/-- The first line of a unit, unless it is empty. -/
def headerLine (text : String) : List Code := if text = "" then [] else [.line [text]]

/-- The whole unit. -/
def code (config : Config) (owner : TypeDecl) (u : ClassUnit) : List Code :=
  headerLine config.header ++
    (config.usings.map fun name => .line ["using ", name, ";"]) ++
    [.blank, .scope owner.namespaceName? (u.classCode config owner)]

/-- The generated unit of a class. -/
def render (config : Config) (owner : TypeDecl) (u : ClassUnit) : GeneratedUnit :=
  ⟨hintName owner, renderCode (u.code config owner)⟩

end ClassUnit

end SceneWiring
