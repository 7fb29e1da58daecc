import SceneWiring.Token
/-!
# Names in code and what they denote

What the names among the tokens of code denote. A name denotes the innermost binding of its identifier
that is in force where it stands, and a member of the class where there is none. Main statements: but
for its layout the text of code is its tokens one after the other, and in a text that binds nothing
every name denotes a member.
-/

namespace SceneWiring

/-! ## Tokens one after the other -/

mutual

/-- The tokens of a step as they follow one another in the text. -/
def TokenCode.tokens : TokenCode → List Token
  | .line tokens => tokens
  | .blank => []
  | .indented body => bodyTokens body
  | .block body => .opening "\x7b" :: (bodyTokens body ++ [.closing "\x7d"])

/-- The tokens of several steps. -/
def bodyTokens : List TokenCode → List Token
  | [] => []
  | step :: rest => step.tokens ++ bodyTokens rest

end

/-- Steps one after the other have their tokens one after the other. -/
theorem bodyTokens_eq_flatMap (body : List TokenCode) :
    bodyTokens body = body.flatMap TokenCode.tokens := by
  induction body with
  | nil => rfl
  | cons step rest ih => rw [bodyTokens, ih, List.flatMap_cons]

/-- Two parts of a body have their tokens one after the other. -/
theorem bodyTokens_append (front back : List TokenCode) :
    bodyTokens (front ++ back) = bodyTokens front ++ bodyTokens back := by
  simp only [bodyTokens_eq_flatMap, List.flatMap_append]

/-- Lines have their tokens one after the other. -/
theorem bodyTokens_map_line {α : Type} (items : List α) (tokens : α → List Token) :
    bodyTokens (items.map fun item => .line (tokens item)) = items.flatMap tokens := by
  simp only [bodyTokens_eq_flatMap, List.flatMap_map, TokenCode.tokens]

/-! ## The text of tokens -/

/-- The text of a token. -/
def Token.chars : Token → List Char
  | .text piece => piece.chars
  | .own name | .bound name | .declared name | .parameter name => name.toList
  | .setter => "set".toList
  | .opening mark | .closing mark => mark.toList

/-- In a line a token is written as its text. -/
theorem Token.chars_piece (t : Token) : t.piece.chars = t.chars := by
  cases t <;> rfl

/-- A text without its line feeds and tabs: these only lay code out. -/
def withoutLayout (text : List Char) : List Char := text.filter fun c => c ≠ '\n' ∧ c ≠ '\t'

/-- Of two texts in a row nothing else is left out. -/
theorem withoutLayout_append (first second : List Char) :
    withoutLayout (first ++ second) = withoutLayout first ++ withoutLayout second :=
  List.filter_append ..

/-- Only line feeds and tabs are put around the text of a line. -/
theorem withoutLayout_lineAt (depth : Nat) (text : List Char) :
    withoutLayout (lineAt depth text) = withoutLayout text := by
  have htabs : withoutLayout (List.replicate depth '\t') = [] := by
    rw [withoutLayout, List.filter_replicate_of_neg (by decide)]
  rw [lineAt]
  split
  · rename_i hempty
    rw [List.isEmpty_iff.1 hempty]
    rfl
  · rw [withoutLayout_append, withoutLayout_append, htabs, List.nil_append]
    exact List.append_nil _

mutual

/-- But for line feeds and tabs a step is written as its tokens one after the other. -/
theorem withoutLayout_plain (depth : Nat) : ∀ step : TokenCode,
    withoutLayout (step.plain.chars depth) = withoutLayout (step.tokens.flatMap Token.chars)
  | .line tokens => by
    rw [TokenCode.plain, Code.chars, withoutLayout_lineAt, TokenCode.tokens, lineChars,
      List.flatMap_map]
    simp only [Token.chars_piece]
  | .blank => rfl
  | .indented body => by
    rw [TokenCode.plain, Code.chars, TokenCode.tokens, withoutLayout_plainBody (depth + 1) body]
  | .block body => by
    rw [TokenCode.plain, Code.chars, blockAt, withoutLayout_append, withoutLayout_append,
      withoutLayout_lineAt, withoutLayout_lineAt, withoutLayout_plainBody (depth + 1) body,
      TokenCode.tokens, List.flatMap_cons, List.flatMap_append, withoutLayout_append,
      withoutLayout_append, List.append_assoc]
    rfl

/-- But for line feeds and tabs steps are written as their tokens one after the other. -/
theorem withoutLayout_plainBody (depth : Nat) : ∀ body : List TokenCode,
    withoutLayout (bodyChars depth (plainBody body)) =
      withoutLayout ((bodyTokens body).flatMap Token.chars)
  | [] => rfl
  | step :: rest => by
    rw [plainBody, bodyChars, withoutLayout_append, withoutLayout_plain depth step,
      withoutLayout_plainBody depth rest, bodyTokens, List.flatMap_append, withoutLayout_append]

end

/-- The tokens of a part of a class are those of its code, when the class has this part at all. -/
structure WritesOut (tokens : Option (List TokenCode)) (code : Option (List Code)) : Prop where
  /-- The code has the text that the tokens are set in. -/
  rendered : tokens.map (fun body => renderCode (plainBody body)) = code.map renderCode
  /-- But for line feeds and tabs this text is the tokens one after the other. -/
  spelled : code.map (fun body => withoutLayout (renderCode body).toList) =
    tokens.map fun body => withoutLayout ((bodyTokens body).flatMap Token.chars)

/-- The tokens of a part are those of the code that they are written as. -/
theorem writesOut_plainBody (tokens : Option (List TokenCode)) :
    WritesOut tokens (tokens.map plainBody) where
  rendered := by
    rw [Option.map_map]
    rfl
  spelled := by
    rw [Option.map_map]
    refine congrArg (tokens.map ·) (funext fun body => ?_)
    rw [Function.comp_apply, renderCode, String.toList_ofList, withoutLayout_plainBody]

/-! ## Bindings in force -/

/-- A name where it stands in code. -/
structure NameUse where
  /-- The name. -/
  name : String
  /-- It is meant for a member of the class, and not for a binding. -/
  own : Bool
  /-- The names that the code has bound there, those of the innermost body first. -/
  inForce : List String
deriving DecidableEq, Repr

/-- The variables that are declared in the body that goes on here, bodies inside it left out. -/
def declaredHere : Nat → List Token → List String
  | _, [] => []
  | depth, .opening _ :: rest => declaredHere (depth + 1) rest
  | 0, .closing _ :: _ => []
  | depth + 1, .closing _ :: rest => declaredHere depth rest
  | 0, .declared name :: rest => name :: declaredHere 0 rest
  | depth, _ :: rest => declaredHere depth rest

/-- The names in a text of tokens. `scopes` are the names bound in the bodies around it, and `waiting`
are the parameters whose body is still to come. -/
def namesIn : List (List String) → List String → List Token → List NameUse
  | _, _, [] => []
  | scopes, waiting, token :: rest =>
    match token with
    | .text _ | .declared _ => namesIn scopes waiting rest
    | .own name => ⟨name, true, scopes.flatten⟩ :: namesIn scopes waiting rest
    | .bound name => ⟨name, false, scopes.flatten⟩ :: namesIn scopes waiting rest
    | .parameter name => namesIn scopes (name :: waiting) rest
    | .setter => namesIn scopes ("value" :: waiting) rest
    | .opening _ => namesIn ((waiting ++ declaredHere 0 rest) :: scopes) [] rest
    | .closing _ => namesIn scopes.tail [] rest

/-! ## What names denote -/

/-- The characters of an identifier. An at sign in front is not part of it. -/
def identifierChars (name : String) : List Char :=
  match name.toList with
  | '@' :: rest => rest
  | chars => chars

/-- The texts are the same identifier. -/
def SameIdentifier (name other : String) : Prop := identifierChars name = identifierChars other

instance (name other : String) : Decidable (SameIdentifier name other) :=
  inferInstanceAs (Decidable (identifierChars name = identifierChars other))

/-- What a name denotes. -/
inductive Denotation where
  /-- Something that the code itself has bound to that name. -/
  | binding (name : String)
  /-- The member of the class that has that name, or the class itself. -/
  | member (name : String)
deriving DecidableEq, Repr

/-- A name denotes the innermost binding in force that has the same identifier, and else a member. -/
def NameUse.denotation (u : NameUse) : Denotation :=
  match u.inForce.find? fun name => SameIdentifier name u.name with
  | some name => .binding name
  | none => .member u.name

/-- Where nothing is bound a name denotes a member. -/
theorem denotation_of_none_bound (name : String) (own : Bool) :
    NameUse.denotation ⟨name, own, []⟩ = .member name := rfl

/-- Where one name is bound it denotes the binding, and every other name a member. -/
theorem denotation_of_one_bound (name binding : String) (own : Bool) :
    NameUse.denotation ⟨name, own, [binding]⟩ =
      if SameIdentifier binding name then .binding binding else .member name := by
  by_cases h : SameIdentifier binding name
  · simp [NameUse.denotation, h]
  · simp [NameUse.denotation, h]

/-! ## Texts that bind nothing -/

/-- The token binds no name and is meant for no binding. -/
inductive Token.Unbinding : Token → Prop
  | text (piece : Piece) : Unbinding (.text piece)
  | own (name : String) : Unbinding (.own name)
  | opening (mark : String) : Unbinding (.opening mark)
  | closing (mark : String) : Unbinding (.closing mark)

attribute [simp] Token.Unbinding.text Token.Unbinding.own Token.Unbinding.opening
  Token.Unbinding.closing

/-- A literal binds nothing. -/
@[simp] theorem Token.unbinding_literal (text : String) : (Token.literal text).Unbinding := .text _

/-- Nothing is declared in a text that binds nothing. -/
theorem declaredHere_eq_nil {tokens : List Token} (h : ∀ t ∈ tokens, t.Unbinding) (depth : Nat) :
    declaredHere depth tokens = [] := by
  fun_induction declaredHere depth tokens with
  | case1 => rfl
  | case3 => rfl
  | case2 _ _ rest ih | case4 _ _ rest ih => exact ih (List.forall_mem_cons.1 h).2
  | case5 name rest => exact nomatch (List.forall_mem_cons.1 h).1
  | case6 _ token rest _ _ _ _ ih => exact ih (List.forall_mem_cons.1 h).2

/-- In a text that binds nothing, within bodies that bind nothing, every name is meant for a member
and nothing is in force. -/
theorem unbound_of_unbinding {tokens : List Token} (h : ∀ t ∈ tokens, t.Unbinding)
    {scopes : List (List String)} (hscopes : scopes.flatten = []) :
    ∀ u ∈ namesIn scopes [] tokens, u.own = true ∧ u.inForce = [] := by
  induction tokens generalizing scopes with
  | nil => exact fun u hu => absurd hu List.not_mem_nil
  | cons token rest ih =>
    obtain ⟨htoken, hrest⟩ := List.forall_mem_cons.1 h
    cases htoken with
    | text piece => exact ih hrest hscopes
    | own name => exact List.forall_mem_cons.2 ⟨⟨rfl, hscopes⟩, ih hrest hscopes⟩
    | opening mark =>
      refine ih hrest ?_
      rw [declaredHere_eq_nil hrest]
      exact hscopes
    | closing mark =>
      refine ih hrest ?_
      cases scopes with
      | nil => rfl
      | cons scope scopes => exact (List.append_eq_nil_iff.1 hscopes).2

/-- In a text that binds nothing every name is meant for a member and denotes it. -/
theorem denotation_of_unbinding {tokens : List Token} (h : ∀ t ∈ tokens, t.Unbinding) :
    ∀ u ∈ namesIn [] [] tokens, u.own = true ∧ u.denotation = .member u.name := by
  intro u hu
  obtain ⟨hown, hforce⟩ := unbound_of_unbinding h rfl u hu
  refine ⟨hown, ?_⟩
  rw [NameUse.denotation, hforce, List.find?_nil]

/-! ## Lists of lines -/

/-- The token is a text, or a name that is meant for a member. -/
inductive Token.Flat : Token → Prop
  | text (piece : Piece) : Flat (.text piece)
  | own (name : String) : Flat (.own name)

attribute [simp] Token.Flat.text Token.Flat.own

/-- The member that a token is meant for. -/
def Token.ownName? : Token → Option String
  | .own name => some name
  | _ => none

/-- Nothing is declared where no body starts or ends and no name is bound. -/
theorem declaredHere_append {tokens : List Token} (h : ∀ t ∈ tokens, t.Flat) (depth : Nat)
    (rest : List Token) : declaredHere depth (tokens ++ rest) = declaredHere depth rest := by
  induction tokens with
  | nil => rfl
  | cons token tokens ih =>
    obtain ⟨htoken, htokens⟩ := List.forall_mem_cons.1 h
    cases htoken <;> simpa [declaredHere] using ih htokens

/-- Whatever is in force, the names that are meant for members are those of the tokens. -/
theorem ownNames_namesIn (scopes : List (List String)) (waiting : List String)
    (tokens : List Token) :
    ((namesIn scopes waiting tokens).filter (·.own)).map (·.name) =
      tokens.filterMap Token.ownName? := by
  induction tokens generalizing scopes waiting with
  | nil => rfl
  | cons token rest ih =>
    cases token <;> simp [namesIn, List.filterMap_cons, Token.ownName?, ih]

/-- The names where no body starts or ends and no name is bound. -/
theorem namesIn_append {tokens : List Token} (h : ∀ t ∈ tokens, t.Flat)
    (scopes : List (List String)) (waiting : List String) (rest : List Token) :
    namesIn scopes waiting (tokens ++ rest) =
      (tokens.filterMap Token.ownName?).map (⟨·, true, scopes.flatten⟩) ++
        namesIn scopes waiting rest := by
  induction tokens with
  | nil => rfl
  | cons token tokens ih =>
    obtain ⟨htoken, htokens⟩ := List.forall_mem_cons.1 h
    cases htoken <;> simp [namesIn, List.filterMap_cons, Token.ownName?, ih htokens]

end SceneWiring
