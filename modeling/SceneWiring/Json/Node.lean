/-!
# JSON documents as trees

A text is read as JSON into a tree in every case. Where the text stops being JSON, the tree says so
at that place, and says which fault a reader meets there. Whether the fault counts is up to the
reader: one who only skips a value tolerates more than one who reads it, and one who finds a
value of the wrong kind never looks inside.
-/

namespace SceneWiring.Json

/-- Why a document cannot be read. -/
inductive Fault where
  /-- The text ends too early. -/
  | cutShort
  /-- The text is not JSON, or JSON that goes beyond a limit. -/
  | malformed
  /-- The value is not of the kind that its place asks for. -/
  | misfit
deriving DecidableEq, Repr

/-- A number as it is spelled. -/
structure Numeral where
  /-- A minus sign stands in front. -/
  negative : Bool
  /-- The digits before the point. -/
  whole : List Nat
  /-- The digits after the point, if there is one. -/
  fraction : Option (List Nat)
  /-- The power of ten, if one is given. -/
  exponent : Option Int
deriving DecidableEq, Repr

/-- A text in quotation marks. -/
structure Quoted where
  /-- The text it stands for, or the fault its reader meets. -/
  content : Except Fault String
  /-- The fault that is met even when the text is skipped. -/
  skipped : Option Fault

/-- How an array or an object ends. -/
inductive Ending where
  /-- By its closing bracket. -/
  | closed
  /-- Not at all: a reader who still asks for members meets the fault `onMore`, one who has all it
  wants and asks for the bracket meets `onClose`. -/
  | stopped (onMore onClose : Fault)
deriving DecidableEq, Repr

/-- A JSON value, or what stands in its place. -/
inductive Node where
  | null
  | bool (value : Bool)
  | number (value : Numeral)
  | text (value : Quoted)
  | array (items : List Node) (ending : Ending)
  | object (fields : List (Quoted × Node)) (ending : Ending)
  /-- The text ends where the value should start. -/
  | absent
  /-- Something that is no value: the fault that reading meets and the one that skipping meets. -/
  | broken (onRead onSkip : Fault)

/-- A whole text: the value it starts with, and whether anything but blanks follows. -/
structure Document where
  /-- The value. -/
  root : Node
  /-- Something follows the value. -/
  trailing : Bool

/-- A text in quotation marks without faults. -/
def Quoted.plain (content : String) : Quoted := ⟨.ok content, none⟩

/-- The document that consists of one value. -/
def Document.ofNode (root : Node) : Document := ⟨root, false⟩

mutual

/-- The fault met by a reader who skips the value. -/
def Node.skipFault : Node → Option Fault
  | .null | .bool _ | .number _ => none
  | .text value => value.skipped
  | .array items ending => skipItems items ending
  | .object fields ending => skipFields fields ending
  | .absent => some .cutShort
  | .broken _ onSkip => some onSkip

/-- The fault met by a reader who skips the items of an array. -/
def skipItems : List Node → Ending → Option Fault
  | [], .closed => none
  | [], .stopped onMore _ => some onMore
  | item :: rest, ending =>
    match item.skipFault with
    | some fault => some fault
    | none => skipItems rest ending

/-- The fault met by a reader who skips the fields of an object. -/
def skipFields : List (Quoted × Node) → Ending → Option Fault
  | [], .closed => none
  | [], .stopped onMore _ => some onMore
  | (key, value) :: rest, ending =>
    match key.skipped with
    | some fault => some fault
    | none =>
      match value.skipFault with
      | some fault => some fault
      | none => skipFields rest ending

end

end SceneWiring.Json
