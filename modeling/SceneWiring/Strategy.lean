import SceneWiring.Token
/-!
# Strategies

What an annotation asks for, once it is decided. A strategy contributes code to up to four sections
of a class: declarations, the constructor, the lifecycle method, and the text after the class. The
code is put together in tokens, which tell the names in it apart.
-/

namespace SceneWiring

/-- A member that is to receive a fetched value. -/
structure Slot where
  /-- The name of the member. -/
  member : String
  /-- The type of the member as generated code writes it. -/
  type : String
  /-- The stem of the companion's name. -/
  stem : String
  /-- The default path, pattern or resource. -/
  fallback : Option String
  /-- The member may end up null. -/
  orNull : Bool
  /-- The companion is not shown in the editor. -/
  hidden : Bool
deriving DecidableEq, Repr, Inhabited

/-- The way in which a value gets into a member, or other code for a class. -/
inductive Strategy where
  /-- Get the node at a path, or a property of it. -/
  | getNode (slot : Slot) (property : Option String)
  /-- Load a resource; `editorHint` is true inside the editor. -/
  | loadResource (slot : Slot) (editorHint : String)
  /-- Find the node whose name fits a mask, or a property of it. -/
  | findNode (slot : Slot) (property : Option String) (recursive owned : Bool)
  /-- Take the nearest ancestor of a name, or the member `source` of it. -/
  | injectAncestor (member ancestorName ancestorType : String) (source : Option String)
  /-- Call a method. -/
  | callMethod (method : String)
  /-- An enumeration of fields and the way back from its entries to the fields. -/
  | selectorEnum (className enumName : String) (fields : List String)
deriving DecidableEq, Repr, Inhabited

namespace Slot

/-- What stands before the declaration of a companion. -/
def exportMark (s : Slot) : String := if s.hidden then "" else "[Export] "

/-- The companion that holds a path. -/
def pathName (s : Slot) : String := s.stem ++ "Path"

/-- The companion that holds a mask. -/
def maskName (s : Slot) : String := s.stem ++ "Mask"

/-- The companion that holds a resource. -/
def resourceName (s : Slot) : String := s.stem ++ "Resource"

/-- The flag that the editor has set the resource. -/
def flagName (s : Slot) : String := "_hasBeenSet" ++ s.member

end Slot

namespace Strategy

/-- The companion that a strategy declares. -/
def companion? : Strategy → Option String
  | .getNode slot _ => some slot.pathName
  | .loadResource slot _ => some slot.resourceName
  | .findNode slot _ _ _ => some slot.maskName
  | .injectAncestor _ _ _ _ | .callMethod _ | .selectorEnum _ _ _ => none

/-- The member that a strategy with a companion fills. -/
def slot? : Strategy → Option Slot
  | .getNode slot _ | .loadResource slot _ | .findNode slot _ _ _ => some slot
  | .injectAncestor _ _ _ _ | .callMethod _ | .selectorEnum _ _ _ => none

/-- The companion that a strategy declares, with the member that it fills. -/
def claim? (s : Strategy) : Option (String × String) :=
  s.companion?.bind fun companion => s.slot?.map fun slot => (companion, slot.member)

/-! ## Strategies in tokens -/

/-- The check that a member is not null in the end. -/
def nullCheckTokens (member companion : String) : List TokenCode :=
  [.line ["if (", .own member, " == null)"],
   .block [.line ["throw new NullReferenceException($\"Member '", member, "' is null in '\x7b",
    .own "Name", "\x7d' '\x7bthis\x7d'. Ensure '", companion,
    "' is set correctly, or set OrNull = true on the attribute to allow null.\");"]]]

/-- The check of a slot, unless it may be null. -/
def slotCheckTokens (slot : Slot) (companion : String) : List TokenCode :=
  if slot.orNull then [] else nullCheckTokens slot.member companion

/-- The initial value of a companion. -/
def initialValueTokens (text : String) : TokenCode := .indented [.line ["= ", .literal text, ";"]]

/-- The declaration of a companion that holds a value of a type. -/
def companionTokens (slot : Slot) (type name : String) : TokenCode :=
  .line [slot.exportMark, "public ", type, " ", name, " \x7b get; set; \x7d"]

/-- The call that gets a node by a path. -/
def getCallTokens (path : String) : List Token := [.own "GetNodeOrNull", "(", .own path, ")"]

/-- The call that finds a node by a mask. -/
def findCallTokens (mask : String) (recursive owned : Bool) : List Token :=
  [.own "FindNode", "(", .own mask, if recursive then "" else ", recursive: false",
    if owned then "" else ", owned: false", ")"]

/-- The assignment of a loaded resource. -/
def loadAssignmentTokens (slot : Slot) (resource : String) : TokenCode :=
  .line [.own slot.member, " = GD.Load<", slot.type, ">(", .literal resource, ");"]

/-- The assignment of a property read off a fetched node. -/
def propertyAssignmentTokens (slot : Slot) (node : List Token) (property : String) : TokenCode :=
  let front : List Token := [.own slot.member, " = (", slot.type, ")"]
  let back : List Token := ["?.Get(", .literal property, ");"]
  .line (front ++ node ++ back)

/-- The assignment of a fetched node taken as its type. -/
def castAssignmentTokens (slot : Slot) (node : List Token) : TokenCode :=
  let front : List Token := [.own slot.member, " = "]
  let back : List Token := [" as ", slot.type, ";"]
  .line (front ++ node ++ back)

/-- The line of a look-up that leads from an entry to its field. -/
def caseTokens (enumName field : String) : List Token :=
  ["case ", enumName, ".", field, ": return ", .own field, ";"]

/-- The look-up that leads from the entries to the fields. -/
def lookupTokens (enumName : String) (fields : List String) : List TokenCode :=
  [.line ["switch (", .bound "key", ")"],
   .block (fields.map fun field => .line (caseTokens enumName field)),
   .line ["throw new ArgumentOutOfRangeException(\"key\");"]]

/-- The line of an enumeration for an entry. -/
def entryTokens (field : String) : List Token := [field, ","]

/-- The enumeration of fields. -/
def enumTokens (enumName : String) (fields : List String) : List TokenCode :=
  [.line ["public enum ", enumName],
   .block (fields.map fun field => .line (entryTokens field))]

/-- The way from an entry of an enumeration to the look-up. -/
def extensionTokens (className enumName : String) : List TokenCode :=
  [.line ["public static class ", enumName, "Extensions"],
   .block [.line ["public static ", className, " GetData(this ", enumName, " ", .parameter "v",
    ") ", .opening "=> ", .own className, ".Get(", .bound "v", ")", .closing ";"]]]

/-- What goes among the declarations of the class. -/
def declarationTokens : Strategy → Option (List TokenCode)
  | .getNode slot _ => some <|
    companionTokens slot "NodePath" slot.pathName :: slot.fallback.toList.map initialValueTokens
  | .loadResource slot _ => some
    [.line [slot.exportMark, "public ", slot.type, " ", slot.resourceName],
     .block
      [.line ["get ", .opening "=> ", .own slot.member, .closing ";"],
       .line [.setter, .opening " \x7b ", .own slot.flagName, " = true; ", .own slot.member, " = ",
        .bound "value", ";", .closing " \x7d"]],
     .line ["private bool ", slot.flagName, ";"]]
  | .findNode slot _ _ _ => some
    [companionTokens slot "string" slot.maskName, initialValueTokens (slot.fallback.getD "")]
  | .selectorEnum className enumName fields => some
    [.line ["public static ", className, " Get(", enumName, " ", .parameter "key", ")"],
     .block (lookupTokens enumName fields)]
  | .injectAncestor _ _ _ _ | .callMethod _ => none

/-- What goes into the constructor of the class. -/
def constructorTokens : Strategy → Option (List TokenCode)
  | .loadResource slot editorHint =>
    slot.fallback.map fun resource =>
      [.line ["if (", editorHint, ")"], .block [loadAssignmentTokens slot resource]]
  | _ => none

/-- The message when no ancestor has the name. -/
def noParentMessage (name : String) : String := "FindParent(\"" ++ name ++ "\") found no parent."

/-- The message when the ancestor of the name has another type. -/
def wrongTypeMessage (name type : String) : String :=
  "FindParent(\"" ++ name ++ "\") is not of type \"" ++ type ++ "\"."

/-- What goes into the lifecycle method of the class. -/
def lifecycleTokens : Strategy → Option (List TokenCode)
  | .getNode slot property => some <|
    [.line ["if (", .own slot.pathName, " != null)"],
     .block [match property with
      | some p => propertyAssignmentTokens slot (getCallTokens slot.pathName) p
      | none => .line [.own slot.member, " = ", .own "GetNodeOrNull", "<", slot.type, ">(",
        .own slot.pathName, ");"]]]
      ++ slotCheckTokens slot slot.pathName
  | .loadResource slot _ =>
    if slot.fallback.isNone && slot.orNull then none
    else some <|
      (match slot.fallback with
        | some resource =>
          [.line ["if (!", .own slot.flagName, ")"], .block [loadAssignmentTokens slot resource]]
        | none => [])
        ++ slotCheckTokens slot slot.resourceName
  | .findNode slot property recursive owned =>
    let call := findCallTokens slot.maskName recursive owned
    some <|
      [.line ["if (", .own slot.maskName, " != null)"],
       .block [match property with
        | some p => propertyAssignmentTokens slot call p
        | none => castAssignmentTokens slot call]]
        ++ slotCheckTokens slot slot.maskName
  | .injectAncestor member ancestorName ancestorType source => some
    [.block
      [.line ["var ", .declared "ancestor", " = (", .own "FindParent", "(", .literal ancestorName,
        ") ?? throw new Exception(", .literal (noParentMessage ancestorName), "))"],
       .indented [.line ["as ", ancestorType, " ?? throw new Exception(",
        .literal (wrongTypeMessage ancestorName ancestorType), ");"]],
       .line (match source with
        | some s => [.own member, " = ", .bound "ancestor", ".", s, ";"]
        | none => [.own member, " = ", .bound "ancestor", ";"])]]
  | .callMethod method => some [.line [.own method, "();"]]
  | .selectorEnum _ _ _ => none

/-- What goes after the class. -/
def outsideTokens : Strategy → Option (List TokenCode)
  | .selectorEnum className enumName fields =>
    some (enumTokens enumName fields ++ .blank :: extensionTokens className enumName)
  | _ => none

/-! ## Strategies as they are written -/

/-- The code among the declarations of the class. -/
def declaration (s : Strategy) : Option (List Code) := s.declarationTokens.map plainBody

/-- The code in the constructor of the class. -/
def constructorPart (s : Strategy) : Option (List Code) := s.constructorTokens.map plainBody

/-- The code in the lifecycle method of the class. -/
def lifecycle (s : Strategy) : Option (List Code) := s.lifecycleTokens.map plainBody

/-- The code after the class. -/
def outside (s : Strategy) : Option (List Code) := s.outsideTokens.map plainBody

end Strategy

end SceneWiring
