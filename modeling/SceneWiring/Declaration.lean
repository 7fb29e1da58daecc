import SceneWiring.Location
import SceneWiring.TypeRef
/-!
# Declarations of a program

The declared types of a program with their members and attributes, and the classes that a walk over
its source has come across. A type is known by its metadata name: its full name, and for a generic
type a backtick and the number of its parameters.
-/

namespace SceneWiring

/-- A constant argument of an attribute. -/
inductive Constant where
  | bool (value : Bool)
  | int (value : Int)
  | text (value : String)
  /-- The type of that name. -/
  | type (name : String)
  /-- A value that no annotation reads. -/
  | other
deriving DecidableEq, Repr, Inhabited

/-- The text, if the argument is one. -/
def Constant.text? : Constant → Option String
  | .text value => some value
  | _ => none

/-- The truth value, if the argument is one. -/
def Constant.bool? : Constant → Option Bool
  | .bool value => some value
  | _ => none

/-- The integer, if the argument is one. -/
def Constant.int? : Constant → Option Int
  | .int value => some value
  | _ => none

/-- The name of the type, if the argument is one. -/
def Constant.type? : Constant → Option String
  | .type name => some name
  | _ => none

/-- An attribute as it stands on a declaration. -/
structure Attribute where
  /-- The name as written, qualified or not. -/
  name : String := ""
  /-- The positional arguments. -/
  args : List Constant := []
  /-- The named arguments, each name once, in ascending order. -/
  named : List (String × Constant) := []
  /-- Where the attribute stands. -/
  location : Location := {}
deriving DecidableEq, Repr, Inhabited

/-- A type parameter and the types that constrain it. -/
structure TypeParameter where
  /-- The name of the parameter. -/
  name : String := ""
  /-- The constraint types. -/
  constraints : List TypeRef := []
deriving DecidableEq, Repr, Inhabited

/-- The two kinds of members that hold a value. -/
inductive MemberKind where
  | field
  | property
deriving DecidableEq, Repr, Inhabited

/-- A field or property of a type. -/
structure Member where
  /-- The name as declared. -/
  name : String := ""
  /-- The type as written. -/
  type : TypeRef := ⟨"", false⟩
  /-- Declared static. -/
  isStatic : Bool := false
  /-- Declared read-only. -/
  isReadonly : Bool := false
  /-- Made by the compiler. -/
  implicit : Bool := false
  /-- The attributes, in order. -/
  attributes : List Attribute := []
  /-- Where the member is declared. -/
  location : Location := {}
deriving DecidableEq, Repr, Inhabited

/-- A parameter of a method. -/
structure Parameter where
  /-- The name of the parameter. -/
  name : String := ""
  /-- Its type as written. -/
  type : TypeRef := ⟨"", false⟩
deriving DecidableEq, Repr, Inhabited

/-- A method of a type. -/
structure Method where
  /-- The name of the method. -/
  name : String := ""
  /-- Its parameters, in order. -/
  params : List Parameter := []
  /-- Declared static. -/
  isStatic : Bool := false
  /-- The attributes, in order. -/
  attributes : List Attribute := []
  /-- Where the method is declared. -/
  location : Location := {}
deriving DecidableEq, Repr, Inhabited

/-- The kinds of declared types. -/
inductive TypeKind where
  | classType
  | interfaceType
  | structType
  | enumType
deriving DecidableEq, Repr, Inhabited

/-- A declared type. -/
structure TypeDecl where
  /-- The simple name. -/
  name : String := ""
  /-- The namespace, if there is one. -/
  namespaceName? : Option String := none
  /-- The dotted path of the enclosing types, if the type is nested. -/
  nestedIn? : Option String := none
  /-- The kind of the type. -/
  kind : TypeKind := .classType
  /-- The base type as written. -/
  base? : Option TypeRef := none
  /-- The implemented interfaces as written. -/
  interfaces : List TypeRef := []
  /-- The type parameters, in order. -/
  typeParameters : List TypeParameter := []
  /-- The attributes, in order. -/
  attributes : List Attribute := []
  /-- The fields, in order. -/
  fields : List Member := []
  /-- The properties, in order. -/
  properties : List Member := []
  /-- The methods, in order. -/
  methods : List Method := []
  /-- Where the type is declared. -/
  location : Location := {}
deriving DecidableEq, Repr, Inhabited

/-- A class that the walk over the source has come across. -/
structure Mention where
  /-- The full name of the class. -/
  name : String := ""
  /-- Where the class is declared. -/
  location : Location := {}
deriving DecidableEq, Repr, Inhabited

namespace TypeDecl

/-- The non-empty parts among namespace and enclosing types. -/
def qualifiers (d : TypeDecl) : List String :=
  (d.namespaceName?.toList ++ d.nestedIn?.toList).filter (· != "")

/-- The name with namespace and enclosing types in front. -/
def fullName (d : TypeDecl) : String := ".".intercalate (d.qualifiers ++ [d.name])

/-- A text with a backtick and a number behind it, except for zero. -/
def withArity (text : String) (arity : Nat) : String :=
  if arity = 0 then text else text ++ "`" ++ toString arity

/-- The name that tells every declared type from all others. -/
def metadataName (d : TypeDecl) : String := withArity d.fullName d.typeParameters.length

/-- The name with the names of the type parameters. -/
def declaredName (d : TypeDecl) : String :=
  if d.typeParameters.isEmpty then d.name
  else d.name ++ "<" ++ ", ".intercalate (d.typeParameters.map (·.name)) ++ ">"

/-- The type parameter of that name. -/
def typeParameter? (d : TypeDecl) (name : String) : Option TypeParameter :=
  d.typeParameters.find? (·.name == name)

/-- The members that hold values: properties, then fields, each in order. -/
def members (d : TypeDecl) : List (MemberKind × Member) :=
  d.properties.map (MemberKind.property, ·) ++ d.fields.map (MemberKind.field, ·)

end TypeDecl

end SceneWiring
