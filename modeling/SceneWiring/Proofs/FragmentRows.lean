import SceneWiring.ClassUnit
import SceneWiring.Proofs.CodeRows
/-!
# Rows of fragments

A fragment is written on its own and split into lines, even where a text in it breaks a line. Main
statements: the rows of a fragment are split one by one, so those of a step do not depend on what
stands around it, and the fragments that the additions of a class contribute stand in the text of its
unit as they are, a declaration one level deeper than what goes after the class.
-/

namespace SceneWiring

namespace Text

/-- What stands behind a line feed is split on its own. -/
theorem linesFrom_append_feed (front text rest : List Char) :
    linesFrom front (text ++ '\n' :: rest) = linesFrom front (text ++ ['\n']) ++ lines rest := by
  induction text generalizing front with
  | nil => rfl
  | cons c text ih =>
    rw [List.cons_append, List.cons_append]
    by_cases hc : c = '\n'
    · rw [hc, linesFrom, linesFrom, ih, List.cons_append]
    · rw [linesFrom, linesFrom, ih]
      · exact hc
      · exact hc

/-- Each row is split on its own. -/
theorem lines_unlines_eq_flatMap (rows : List (List Char)) :
    lines (unlines rows) = rows.flatMap fun row => lines (row ++ ['\n']) := by
  induction rows with
  | nil => rfl
  | cons row rest ih =>
    have hsplit : unlines (row :: rest) = row ++ '\n' :: unlines rest := by
      simp [unlines]
    rw [hsplit, List.flatMap_cons, ← ih]
    exact linesFrom_append_feed [] row (unlines rest)

/-- Plain rows are one line each. -/
theorem flatMap_lines_of_plain {rows : List (List Char)} (h : ∀ row ∈ rows, IsPlainLine row) :
    (rows.flatMap fun row => lines (row ++ ['\n'])) = rows := by
  rw [← lines_unlines_eq_flatMap, lines_unlines rows h]

/-- A text that does not end in a line feed leaves its last line open: what is added to the text is
added to that line. -/
theorem exists_open_line (front text : List Char) {c : Char} (hc : c ≠ '\n') :
    ∃ before last, linesFrom front (text ++ [c]) = before ++ [last] ∧
      ∀ back, IsPlainLine back → back ≠ [] →
        linesFrom front (text ++ c :: (back ++ ['\n'])) = before ++ [last ++ back] := by
  induction text generalizing front with
  | nil =>
    refine ⟨[], (c :: front).reverse, ?_, fun back hback hne => ?_⟩
    · rw [List.nil_append, linesFrom]
      · rfl
      · exact hc
    · have hreturn : ((c :: front).reverse ++ back).getLast? ≠ some '\r' := by
        rw [List.getLast?_append_of_ne_nil _ hne]
        exact hback.2
      rw [List.nil_append, linesFrom, linesFrom_append _ _ _ hback.1, dropReturn_of_plain hreturn]
      · rfl
      · exact hc
  | cons d text ih =>
    by_cases hd : d = '\n'
    -- A line feed closes the line in front: it comes before all others and is not touched again.
    · obtain ⟨before, last, hlines, hopen⟩ := ih []
      refine ⟨dropReturn front.reverse :: before, last, ?_, fun back hback hne => ?_⟩
      · rw [hd, List.cons_append, linesFrom, hlines, List.cons_append]
      · rw [hd, List.cons_append, linesFrom, hopen back hback hne, List.cons_append]
    · obtain ⟨before, last, hlines, hopen⟩ := ih (d :: front)
      refine ⟨before, last, ?_, fun back hback hne => ?_⟩
      · rw [List.cons_append, linesFrom, hlines]
        exact hd
      · rw [List.cons_append, linesFrom, hopen back hback hne]
        exact hd

end Text

/-- The rows of a fragment are those of its steps, each split on its own. -/
theorem fragmentRows_eq_flatMap (body : List Code) :
    fragmentRows body = (bodyRows body).flatMap fun row => Text.lines (row ++ ['\n']) := by
  rw [fragmentRows, bodyChars_zero, Text.lines_unlines_eq_flatMap]

/-- Steps one after the other make rows one after the other, in a fragment too. -/
theorem fragmentRows_append (first second : List Code) :
    fragmentRows (first ++ second) = fragmentRows first ++ fragmentRows second := by
  rw [fragmentRows_eq_flatMap, bodyRows_append, List.flatMap_append, ← fragmentRows_eq_flatMap,
    ← fragmentRows_eq_flatMap]

/-- A row that is not empty is indented by a tab. -/
theorem indentRow_of_ne_nil {row : Row} (h : row ≠ []) : indentRow row = '\t' :: row := by
  cases row with
  | nil => exact absurd rfl h
  | cons c rest => rfl

/-- Lines one after the other are their rows, and one level deeper each has a tab in front, provided
that none is empty. -/
theorem map_indentRow_bodyRows_lines {α : Type} {pieces : α → List Piece} (xs : List α)
    (h : ∀ x, lineChars (pieces x) ≠ []) :
    (bodyRows (xs.map fun x => .line (pieces x))).map indentRow =
      xs.map fun x => '\t' :: lineChars (pieces x) := by
  induction xs with
  | nil => rfl
  | cons x xs ih =>
    rw [List.map_cons, bodyRows, Code.rows, List.map_append, ih, List.map_singleton,
      indentRow_of_ne_nil (h x)]
    rfl

/-- The rows of a block in a fragment stand between braces, each indented and split on its own. -/
theorem fragmentRows_block (body : List Code) :
    fragmentRows [.block body] =
      ['\x7b'] :: ((bodyRows body).map indentRow).flatMap (fun row => Text.lines (row ++ ['\n'])) ++
        [['\x7d']] := by
  have hrows : bodyRows [.block body] =
      ['\x7b'] :: ((bodyRows body).map indentRow ++ [['\x7d']]) := by
    rw [bodyRows, bodyRows, List.append_nil, Code.rows, braced]
  rw [fragmentRows_eq_flatMap, hrows, List.flatMap_cons, List.flatMap_append, List.cons_append]
  rfl

/-! ## Fragments in a text -/

/-- The text of a step stands in the text of all steps. -/
theorem chars_infix_bodyChars (depth : Nat) {step : Code} {body : List Code} (h : step ∈ body) :
    step.chars depth <:+: bodyChars depth body := by
  obtain ⟨front, back, rfl⟩ := List.append_of_mem h
  rw [bodyChars_append, bodyChars]
  exact ⟨bodyChars depth front, bodyChars depth back, List.append_assoc _ _ _⟩

/-- The rows of a fragment stand in the text of all steps. -/
theorem fragment_infix_bodyChars (depth : Nat) {fragment body : List Code}
    (h : Code.fragment fragment ∈ body) :
    linesAt depth (fragmentRows fragment) <:+: bodyChars depth body :=
  chars_infix_bodyChars depth h

/-- What stands between braces stands one level deeper. -/
theorem bodyChars_infix_block (depth : Nat) (body : List Code) :
    bodyChars (depth + 1) body <:+: (Code.block body).chars depth :=
  ⟨lineAt depth ['\x7b'], lineAt depth ['\x7d'], rfl⟩

/-- What stands in a namespace stands there at some depth. -/
theorem exists_bodyChars_infix_scope (depth : Nat) (name : Option String) (body : List Code) :
    ∃ deeper, bodyChars deeper body <:+: (Code.scope name body).chars depth := by
  cases name with
  | none => exact ⟨depth, List.infix_rfl⟩
  | some name =>
    rw [Code.chars]
    split
    · exact ⟨depth, List.infix_rfl⟩
    · have hblock := bodyChars_infix_block depth body
      rw [Code.chars] at hblock
      exact ⟨depth + 1, hblock.trans (List.suffix_append _ _).isInfix⟩

/-- What is in a part is in what is put together from the parts. -/
theorem mem_intercalate_of_mem {α : Type} {between part : List α} {x : α} {parts : List (List α)}
    (hpart : part ∈ parts) (hx : x ∈ part) : x ∈ between.intercalate parts := by
  induction parts with
  | nil => cases hpart
  | cons first parts ih =>
    cases parts with
    | nil => simpa [List.mem_singleton.1 hpart] using hx
    | cons next parts =>
      rw [List.intercalate_cons_cons, List.mem_append, List.mem_append]
      rcases List.mem_cons.1 hpart with rfl | hrest
      · exact .inl (.inl hx)
      · exact .inr (ih hrest)

namespace ClassUnit

variable {u : ClassUnit} {a : Addition}

/-- What an addition puts after the class is a fragment of its code. -/
theorem fragment_mem_classCode (config : Config) (owner : TypeDecl) (ha : a ∈ u.additions)
    {after : List Code} (hafter : a.strategy.outside = some after) :
    Code.fragment after ∈ u.classCode config owner := by
  have hmem : after ∈ u.additions.filterMap (·.strategy.outside) :=
    List.mem_filterMap.2 ⟨a, ha, hafter⟩
  rw [classCode, List.mem_append]
  exact .inr (List.mem_flatMap.2 ⟨after, hmem, List.mem_cons_of_mem _ List.mem_cons_self⟩)

/-- What an addition declares is a fragment of the class body. -/
theorem fragment_mem_sections (config : Config) (owner : TypeDecl) (ha : a ∈ u.additions)
    {declared : List Code} (hdeclared : a.strategy.declaration = some declared) :
    Code.fragment declared ∈ [Code.blank].intercalate (u.sections config owner) := by
  have hmem : declared ∈ u.additions.filterMap (·.strategy.declaration) :=
    List.mem_filterMap.2 ⟨a, ha, hdeclared⟩
  have hsection : [Code.fragment declared] ∈ u.sections config owner := by
    rw [sections, List.mem_append, List.mem_append]
    exact .inl (.inl (List.mem_map_of_mem hmem))
  exact mem_intercalate_of_mem hsection List.mem_cons_self

/-- The fragments of an addition stand in the text of the unit: what goes after the class at some
depth, and what is declared in the class one level deeper. -/
theorem exists_fragments_infix_render (config : Config) (owner : TypeDecl) (ha : a ∈ u.additions) :
    ∃ depth,
      (∀ after, a.strategy.outside = some after →
        linesAt depth (fragmentRows after) <:+: (u.render config owner).text.toList) ∧
      ∀ declared, a.strategy.declaration = some declared →
        linesAt (depth + 1) (fragmentRows declared) <:+: (u.render config owner).text.toList := by
  have htext : (u.render config owner).text.toList = bodyChars 0 (u.code config owner) := by
    rw [render, renderCode, String.toList_ofList]
  have hscope : Code.scope owner.namespaceName? (u.classCode config owner) ∈
      u.code config owner := by
    rw [code, List.mem_append]
    exact .inr (List.mem_cons_of_mem _ List.mem_cons_self)
  obtain ⟨depth, hdepth⟩ :=
    exists_bodyChars_infix_scope 0 owner.namespaceName? (u.classCode config owner)
  have hclass : bodyChars depth (u.classCode config owner) <:+:
      bodyChars 0 (u.code config owner) := hdepth.trans (chars_infix_bodyChars 0 hscope)
  have hblock : Code.block ([.blank].intercalate (u.sections config owner)) ∈
      u.classCode config owner := by
    rw [classCode, List.mem_append]
    exact .inl (List.mem_cons_of_mem _ List.mem_cons_self)
  rw [htext]
  refine ⟨depth, fun after hafter => ?_, fun declared hdeclared => ?_⟩
  · have hmem := fragment_mem_classCode config owner ha hafter
    exact (fragment_infix_bodyChars depth hmem).trans hclass
  · have hmem := fragment_mem_sections config owner ha hdeclared
    have hbody := (bodyChars_infix_block depth _).trans (chars_infix_bodyChars depth hblock)
    exact ((fragment_infix_bodyChars (depth + 1) hmem).trans hbody).trans hclass

end ClassUnit

end SceneWiring
