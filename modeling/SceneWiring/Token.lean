import SceneWiring.Code
/-!
# Code in tokens

The lines of generated code are put together from tokens. They tell which texts are names, and
whether a name is meant for a member of the class that the code is part of or for what the code itself
binds: a variable, a parameter, the new value in a setter. The code is written as the tokens follow
one another.
-/

namespace SceneWiring

/-- A part of a line of code. -/
inductive Token where
  /-- Text in which no name of a member or a binding stands by itself. -/
  | text (piece : Piece)
  /-- A name that is meant for a member of the class, or for the class that has the member. -/
  | own (name : String)
  /-- A name that is meant for what the code itself binds. -/
  | bound (name : String)
  /-- The name of a new variable. It is in force in all of the body that it stands in. -/
  | declared (name : String)
  /-- The name of a parameter. It is in force in the next body. -/
  | parameter (name : String)
  /-- The word for a setter. In its body the new value goes by the name `value`. -/
  | setter
  /-- What a body starts with: a brace, or the arrow before an expression. -/
  | opening (mark : String)
  /-- What a body ends with: a brace, or the semicolon behind an expression. -/
  | closing (mark : String)

instance : Coe String Token := ⟨fun text => .text text⟩

/-- A text that is written as a literal. -/
def Token.literal (text : String) : Token := .text (.literal text)

/-- The piece of a line that a token is. -/
def Token.piece : Token → Piece
  | .text piece => piece
  | .own name | .bound name | .declared name | .parameter name => name
  | .setter => "set"
  | .opening mark | .closing mark => mark

section

variable (name mark : String)

@[simp] theorem Token.piece_text (piece : Piece) : (Token.text piece).piece = piece := rfl

@[simp] theorem Token.piece_literal (text : String) : (Token.literal text).piece = .literal text := rfl

@[simp] theorem Token.piece_own : (Token.own name).piece = .raw name := rfl

@[simp] theorem Token.piece_bound : (Token.bound name).piece = .raw name := rfl

@[simp] theorem Token.piece_declared : (Token.declared name).piece = .raw name := rfl

@[simp] theorem Token.piece_parameter : (Token.parameter name).piece = .raw name := rfl

@[simp] theorem Token.piece_setter : Token.setter.piece = .raw "set" := rfl

@[simp] theorem Token.piece_opening : (Token.opening mark).piece = .raw mark := rfl

@[simp] theorem Token.piece_closing : (Token.closing mark).piece = .raw mark := rfl

end

/-- A step of code whose lines are made of tokens. -/
inductive TokenCode where
  /-- A line. -/
  | line (tokens : List Token)
  /-- An empty line. -/
  | blank
  /-- A part one level deeper. -/
  | indented (body : List TokenCode)
  /-- A part between braces, one level deeper. -/
  | block (body : List TokenCode)

mutual

/-- The step as it is written. -/
def TokenCode.plain : TokenCode → Code
  | .line tokens => .line (tokens.map Token.piece)
  | .blank => .blank
  | .indented body => .indented (plainBody body)
  | .block body => .block (plainBody body)

/-- The steps as they are written. -/
def plainBody : List TokenCode → List Code
  | [] => []
  | step :: rest => step.plain :: plainBody rest

end

attribute [simp] TokenCode.plain plainBody

/-- Steps are written one by one. -/
theorem plainBody_eq_map (body : List TokenCode) : plainBody body = body.map TokenCode.plain := by
  induction body with
  | nil => rfl
  | cons step rest ih => rw [plainBody, ih, List.map_cons]

/-- Lines are written one by one. -/
@[simp]
theorem plainBody_map_line {α : Type} (items : List α) (tokens : α → List Token) :
    plainBody (items.map fun item => .line (tokens item)) =
      items.map fun item => .line ((tokens item).map Token.piece) := by
  rw [plainBody_eq_map, List.map_map]
  rfl

/-- Two parts of a body are written one after the other. -/
@[simp]
theorem plainBody_append (front back : List TokenCode) :
    plainBody (front ++ back) = plainBody front ++ plainBody back := by
  simp only [plainBody_eq_map, List.map_append]

end SceneWiring
