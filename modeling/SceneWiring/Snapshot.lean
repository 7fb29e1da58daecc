import SceneWiring.Config
import SceneWiring.Declaration
/-!
# Snapshots

The JSON description of a program: its declared types, the classes met in its source, and settings.
Every record may be written as an object or as the array of its fields in the order given here.
-/

namespace SceneWiring

open Json

/-- The description of a program. -/
structure Snapshot where
  /-- The declared types. -/
  types : List TypeDecl := []
  /-- The classes met in the source. -/
  mentions : List Mention := []
  /-- The settings. -/
  config : Config := {}
deriving DecidableEq, Repr, Inhabited

/-- The fields of a written location, in order. -/
def Location.jsonFields : List (Json.Field Location) :=
  [optionalField "file" Decoder.text fun v l => { l with file := v },
   optionalField "line" (Decoder.natural (Nat.pow 2 32)) fun v l => { l with line := v },
   optionalField "column" (Decoder.natural (Nat.pow 2 32)) fun v l => { l with column := v }]

/-- A written location. -/
def Location.decoder : Decoder Location := Decoder.record {} Location.jsonFields

/-- A written type. -/
def TypeRef.decoder : Decoder TypeRef := fun room node => (Decoder.text room node).map TypeRef.ofText

/-- The values under a key, in order. -/
def valuesUnder (key : String) (fields : List (Quoted × Node)) : List Node :=
  (fields.filter fun (k, _) =>
    match k.content with
    | .ok content => content == key
    | .error _ => false).map (·.2)

/-- The constant that a node stands for: a truth value, an integer of 64 bits, a text, or an object
that gives the name of a type once under the key `type`. Everything else is of no concern. -/
def Constant.ofNode : Node → Constant
  | .bool value => .bool value
  | .number n =>
    match n.int? with
    | some value => if value < Int.pow 2 63 then .int value else .other
    | none => .other
  | .text value =>
    match value.content with
    | .ok content => .text content
    | .error _ => .other
  | .object fields _ =>
    match valuesUnder "type" fields with
    | [.text value] =>
      match value.content with
      | .ok content => .type content
      | .error _ => .other
    | _ => .other
  | _ => .other

/-- A written constant: any value that can be read at all. -/
def Constant.decoder : Decoder Constant := fun room node =>
  (node.wellRead room).map Constant.ofNode

/-- The fields of a written attribute, in order. -/
def Attribute.jsonFields : List (Json.Field Attribute) :=
  [requiredField "name" Decoder.text fun v a => { a with name := v },
   optionalField "args" (Decoder.list Constant.decoder) fun v a => { a with args := v },
   optionalField "named" (Decoder.entries Constant.decoder) fun v a => { a with named := v },
   optionalField "location" Location.decoder fun v a => { a with location := v }]

/-- A written attribute. -/
def Attribute.decoder : Decoder Attribute := Decoder.record {} Attribute.jsonFields

/-- The fields of a written type parameter, in order. -/
def TypeParameter.jsonFields : List (Json.Field TypeParameter) :=
  [requiredField "name" Decoder.text fun v p => { p with name := v },
   optionalField "constraints" (Decoder.list TypeRef.decoder)
     fun v p => { p with constraints := v }]

/-- A written type parameter. -/
def TypeParameter.decoder : Decoder TypeParameter := Decoder.record {} TypeParameter.jsonFields

/-- The fields of a written field or property, in order. -/
def Member.jsonFields : List (Json.Field Member) :=
  [requiredField "name" Decoder.text fun v m => { m with name := v },
   requiredField "type" TypeRef.decoder fun v m => { m with type := v },
   optionalField "static" Decoder.flag fun v m => { m with isStatic := v },
   optionalField "readonly" Decoder.flag fun v m => { m with isReadonly := v },
   optionalField "implicit" Decoder.flag fun v m => { m with implicit := v },
   optionalField "attributes" (Decoder.list Attribute.decoder)
     fun v m => { m with attributes := v },
   optionalField "location" Location.decoder fun v m => { m with location := v }]

/-- A written field or property. -/
def Member.decoder : Decoder Member := Decoder.record {} Member.jsonFields

/-- The fields of a written parameter of a method, in order. -/
def Parameter.jsonFields : List (Json.Field Parameter) :=
  [requiredField "name" Decoder.text fun v p => { p with name := v },
   requiredField "type" TypeRef.decoder fun v p => { p with type := v }]

/-- A written parameter of a method. -/
def Parameter.decoder : Decoder Parameter := Decoder.record {} Parameter.jsonFields

/-- The fields of a written method, in order. -/
def Method.jsonFields : List (Json.Field Method) :=
  [requiredField "name" Decoder.text fun v m => { m with name := v },
   optionalField "params" (Decoder.list Parameter.decoder) fun v m => { m with params := v },
   optionalField "static" Decoder.flag fun v m => { m with isStatic := v },
   optionalField "attributes" (Decoder.list Attribute.decoder)
     fun v m => { m with attributes := v },
   optionalField "location" Location.decoder fun v m => { m with location := v }]

/-- A written method. -/
def Method.decoder : Decoder Method := Decoder.record {} Method.jsonFields

/-- The words for the kinds of types. -/
def TypeKind.words : List (String × TypeKind) :=
  [("class", .classType), ("interface", .interfaceType), ("struct", .structType),
   ("enum", .enumType)]

/-- The word for a kind of type. -/
def TypeKind.word : TypeKind → String
  | .classType => "class"
  | .interfaceType => "interface"
  | .structType => "struct"
  | .enumType => "enum"

/-- The fields of a written type declaration, in order. -/
def TypeDecl.jsonFields : List (Json.Field TypeDecl) :=
  [requiredField "name" Decoder.text fun v d => { d with name := v },
   optionalField "namespace" (Decoder.nullable Decoder.text)
     fun v d => { d with namespaceName? := v },
   optionalField "nested_in" (Decoder.nullable Decoder.text)
     fun v d => { d with nestedIn? := v },
   optionalField "kind" (Decoder.choice TypeKind.words) fun v d => { d with kind := v },
   optionalField "base" (Decoder.nullable TypeRef.decoder) fun v d => { d with base? := v },
   optionalField "interfaces" (Decoder.list TypeRef.decoder)
     fun v d => { d with interfaces := v },
   optionalField "type_params" (Decoder.list TypeParameter.decoder)
     fun v d => { d with typeParameters := v },
   optionalField "attributes" (Decoder.list Attribute.decoder)
     fun v d => { d with attributes := v },
   optionalField "fields" (Decoder.list Member.decoder) fun v d => { d with fields := v },
   optionalField "properties" (Decoder.list Member.decoder)
     fun v d => { d with properties := v },
   optionalField "methods" (Decoder.list Method.decoder) fun v d => { d with methods := v },
   optionalField "location" Location.decoder fun v d => { d with location := v }]

/-- A written type declaration. -/
def TypeDecl.decoder : Decoder TypeDecl := Decoder.record {} TypeDecl.jsonFields

/-- The fields of a written mention of a class, in order. -/
def Mention.jsonFields : List (Json.Field Mention) :=
  [requiredField "name" Decoder.text fun v m => { m with name := v },
   optionalField "location" Location.decoder fun v m => { m with location := v }]

/-- A written mention of a class. -/
def Mention.decoder : Decoder Mention := Decoder.record {} Mention.jsonFields

/-- The fields of a written snapshot, in order. -/
def Snapshot.jsonFields : List (Json.Field Snapshot) :=
  [optionalField "types" (Decoder.list TypeDecl.decoder) fun v s => { s with types := v },
   optionalField "classes" (Decoder.list Mention.decoder) fun v s => { s with mentions := v },
   optionalField "config" Config.decoder fun v s => { s with config := v }]

/-- A written snapshot. -/
def Snapshot.decoder : Decoder Snapshot := Decoder.record {} Snapshot.jsonFields

/-- The snapshot in a document. -/
def Snapshot.ofDocument (document : Document) : Except Fault Snapshot :=
  document.read Snapshot.decoder

end SceneWiring
