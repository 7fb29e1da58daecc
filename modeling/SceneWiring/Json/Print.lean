import SceneWiring.Json.Node
import SceneWiring.Text.Hex
/-!
# Writing JSON

The compact text of a tree, and the indented text of the same values as it is written for people:
one member a line, two spaces a level, a space after the colon.
-/

namespace SceneWiring.Json

/-- What stands for a character between quotation marks. -/
def escape (c : Char) : List Char :=
  if c = '"' then ['\\', '"']
  else if c = '\\' then ['\\', '\\']
  else if c = '\n' then ['\\', 'n']
  else if c = '\r' then ['\\', 'r']
  else if c = '\t' then ['\\', 't']
  else if c = '\x08' then ['\\', 'b']
  else if c = '\x0c' then ['\\', 'f']
  else if c.toNat < 0x20 then
    '\\' :: 'u' :: Text.fourHexDigits c.toNat
  else [c]

/-- A text in quotation marks. -/
def quote (text : String) : String :=
  String.ofList ('"' :: text.toList.flatMap escape ++ ['"'])

/-- The digits of a numeral. -/
def renderDigits (digits : List Nat) : String :=
  String.ofList (digits.map fun d => Char.ofNat (48 + d))

/-- A numeral with its sign, digits, point and power of ten. -/
def Numeral.render (n : Numeral) : String :=
  (if n.negative then "-" else "") ++ renderDigits n.whole ++
    (match n.fraction with
      | some digits => "." ++ renderDigits digits
      | none => "") ++
    (match n.exponent with
      | some power => "e" ++ toString power
      | none => "")

/-- A quoted text as it stands in a document; a faulty one is left empty. -/
def Quoted.render (q : Quoted) : String :=
  match q.content with
  | .ok content => quote content
  | .error _ => quote ""

mutual

/-- The compact text of a tree. Nothing is written where the tree is broken. -/
def Node.render : Node → String
  | .null => "null"
  | .bool true => "true"
  | .bool false => "false"
  | .number n => n.render
  | .text value => value.render
  | .array items _ => "[" ++ ",".intercalate (renderItems items) ++ "]"
  | .object fields _ => "\x7b" ++ ",".intercalate (renderFields fields) ++ "\x7d"
  | .absent | .broken _ _ => ""

/-- The compact texts of the items of an array. -/
def renderItems : List Node → List String
  | [] => []
  | item :: rest => item.render :: renderItems rest

/-- The compact texts of the fields of an object. -/
def renderFields : List (Quoted × Node) → List String
  | [] => []
  | (key, value) :: rest => (key.render ++ ":" ++ value.render) :: renderFields rest

end

/-- Members between brackets, one a line at two spaces a level; no member, no line. -/
def bracketed (level : Nat) (opening closing : String) (members : List String) : String :=
  if members.isEmpty then opening ++ closing
  else
    let margin (n : Nat) := String.ofList ('\n' :: List.replicate (2 * n) ' ')
    opening ++ ",".intercalate (members.map (margin (level + 1) ++ ·)) ++ margin level ++ closing

mutual

/-- The indented text of a tree at a level. -/
def Node.renderIndented (level : Nat) : Node → String
  | .array items _ => bracketed level "[" "]" (renderItemsIndented (level + 1) items)
  | .object fields _ => bracketed level "\x7b" "\x7d" (renderFieldsIndented (level + 1) fields)
  | .null => "null"
  | .bool true => "true"
  | .bool false => "false"
  | .number n => n.render
  | .text value => value.render
  | .absent | .broken _ _ => ""

/-- The indented texts of the items of an array. -/
def renderItemsIndented (level : Nat) : List Node → List String
  | [] => []
  | item :: rest => item.renderIndented level :: renderItemsIndented level rest

/-- The indented texts of the fields of an object. -/
def renderFieldsIndented (level : Nat) : List (Quoted × Node) → List String
  | [] => []
  | (key, value) :: rest =>
    (key.render ++ ": " ++ value.renderIndented level) :: renderFieldsIndented level rest

end

/-- The digits of a natural number, highest first. -/
def naturalDigits (n : Nat) : List Nat := (Nat.toDigits 10 n).map fun c => c.toNat - 48

/-- The node of a natural number. -/
def Node.natural (n : Nat) : Node := .number ⟨false, naturalDigits n, none, none⟩

/-- The node of an integer. -/
def Node.integer (i : Int) : Node :=
  .number ⟨decide (i < 0), naturalDigits i.natAbs, none, none⟩

/-- The node of a text. -/
def Node.string (content : String) : Node := .text (.plain content)

/-- The node of a list of nodes. -/
def Node.list (items : List Node) : Node := .array items .closed

/-- The node of a list of texts. -/
def Node.texts (contents : List String) : Node := .list (contents.map .string)

/-- The node of named values. -/
def Node.struct (fields : List (String × Node)) : Node :=
  .object (fields.map fun (key, value) => (.plain key, value)) .closed

end SceneWiring.Json
