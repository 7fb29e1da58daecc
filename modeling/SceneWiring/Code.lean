import SceneWiring.Text.Lines
import SceneWiring.Text.Literal
/-!
# Code as a tree

Generated code is a list of steps: lines, blank lines, indented parts, blocks in braces, namespaces
and fragments. A line is made of pieces, so that it stays visible which texts are code and which are
data in a string literal. A fragment is written without indentation first and then set, line by line,
at the place where it stands.
-/

namespace SceneWiring

/-- A piece of a line. -/
inductive Piece where
  /-- Text that is code. -/
  | raw (text : String)
  /-- Text that is data, written as a string literal. -/
  | literal (text : String)
deriving DecidableEq, Repr, Inhabited

instance : Coe String Piece := ⟨.raw⟩

/-- The text of a piece. -/
def Piece.chars : Piece → List Char
  | .raw text => text.toList
  | .literal text => Text.literalChars text.toList

/-- The text of the pieces of a line. -/
def lineChars (pieces : List Piece) : List Char := pieces.flatMap Piece.chars

/-- A step of generated code. -/
inductive Code where
  /-- A line of text. -/
  | line (pieces : List Piece)
  /-- An empty line. -/
  | blank
  /-- A part one level deeper. -/
  | indented (body : List Code)
  /-- A part between braces, one level deeper. -/
  | block (body : List Code)
  /-- A block of a namespace, or just the part itself when there is no namespace. -/
  | scope (name : Option String) (body : List Code)
  /-- A part that is written on its own and set here line by line. -/
  | fragment (body : List Code)
deriving Inhabited

/-- A line at a depth: one tab a level before the text, and no tab on an empty line. -/
def lineAt (depth : Nat) (text : List Char) : List Char :=
  if text.isEmpty then ['\n'] else List.replicate depth '\t' ++ text ++ ['\n']

/-- Lines at a depth. -/
def linesAt (depth : Nat) (texts : List (List Char)) : List Char := texts.flatMap (lineAt depth)

/-- A block around a body that is already written. -/
def blockAt (depth : Nat) (body : List Char) : List Char :=
  lineAt depth ['\x7b'] ++ body ++ lineAt depth ['\x7d']

mutual

/-- The text of a step at a depth. -/
def Code.chars (depth : Nat) : Code → List Char
  | .line pieces => lineAt depth (lineChars pieces)
  | .blank => ['\n']
  | .indented body => bodyChars (depth + 1) body
  | .block body => blockAt depth (bodyChars (depth + 1) body)
  | .scope none body => bodyChars depth body
  | .scope (some name) body =>
    if name = "" then bodyChars depth body
    else lineAt depth (lineChars ["namespace ", name]) ++ blockAt depth (bodyChars (depth + 1) body)
  | .fragment body => linesAt depth (Text.lines (bodyChars 0 body))

/-- The text of several steps at a depth. -/
def bodyChars (depth : Nat) : List Code → List Char
  | [] => []
  | step :: rest => step.chars depth ++ bodyChars depth rest

end

/-- The text of several steps without indentation. -/
def renderCode (body : List Code) : String := String.ofList (bodyChars 0 body)

/-- The text of a fragment without indentation. -/
def renderFragment (body : List Code) : String := renderCode [.fragment body]

/-- Steps one after the other give their texts one after the other. -/
theorem bodyChars_append (depth : Nat) (first second : List Code) :
    bodyChars depth (first ++ second) = bodyChars depth first ++ bodyChars depth second := by
  induction first with
  | nil => simp [bodyChars]
  | cons step rest ih => simp [bodyChars, ih]

end SceneWiring
