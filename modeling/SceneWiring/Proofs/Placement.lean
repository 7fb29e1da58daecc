import SceneWiring.Proofs.CodeRows
/-!
# Fragments set in place

Code can be written in two ways: step by step, by a writer that keeps the text so far and the tabs for
the next line, or as a fragment, which is written on its own, split into lines and set line by line at
the place where it belongs. Main statements: a writer adds the text of a step at its depth and keeps
its depth; a fragment adds each line of its own text once, one tab a level before it unless it is
empty; and both ways come to the same when no line or namespace breaks a line of its own.
-/

namespace SceneWiring

namespace Text

/-- A text is made of lines. A line feed ends a line, a carriage return right before it belongs to no
line either, and what stands behind the last line feed is one more line unless it is empty. -/
inductive MadeOf : List Char → List (List Char) → Prop
  /-- There is no text. -/
  | nil : MadeOf [] []
  /-- The last line is not ended. -/
  | last {line : List Char} (hne : line ≠ []) (hfeed : '\n' ∉ line) : MadeOf line [line]
  /-- A line feed ends the first line. -/
  | feed {line rest : List Char} {ls : List (List Char)} (hfeed : '\n' ∉ line)
    (hreturn : line.getLast? ≠ some '\r') (hrest : MadeOf rest ls) :
    MadeOf (line ++ '\n' :: rest) (line :: ls)
  /-- A carriage return and a line feed end the first line. -/
  | returnFeed {line rest : List Char} {ls : List (List Char)} (hfeed : '\n' ∉ line)
    (hrest : MadeOf rest ls) : MadeOf (line ++ '\r' :: '\n' :: rest) (line :: ls)

/-- The carriage return at the end of a line is dropped. -/
theorem dropReturn_append_return (line : List Char) : dropReturn (line ++ ['\r']) = line := by
  induction line with
  | nil => rfl
  | cons c rest ih => rw [List.cons_append, dropReturn, ih]; simp

/-- A text is made of its lines, whatever stands before it in the first one. -/
theorem madeOf_linesFrom {front : List Char} (text : List Char) (hfront : '\n' ∉ front) :
    MadeOf (front.reverse ++ text) (linesFrom front text) := by
  have hback {line : List Char} (h : '\n' ∉ line) : '\n' ∉ line.reverse :=
    fun hmem => h (List.mem_reverse.1 hmem)
  fun_induction linesFrom front text with
  | case1 front hempty =>
    rw [List.isEmpty_iff.1 hempty]
    exact .nil
  | case2 front hempty =>
    have hne : front.reverse ≠ [] := by simpa using hempty
    rw [List.append_nil]
    exact .last hne (hback hfront)
  | case3 front rest ih =>
    have hrest : MadeOf rest (linesFrom [] rest) := ih List.not_mem_nil
    by_cases hreturn : front.reverse.getLast? = some '\r'
    · obtain ⟨line, hline⟩ := List.getLast?_eq_some_iff.1 hreturn
      have hfeed : '\n' ∉ line := by
        intro hmem
        exact hback hfront (hline ▸ List.mem_append_left _ hmem)
      rw [hline, dropReturn_append_return, List.append_assoc]
      exact .returnFeed hfeed hrest
    · rw [dropReturn_of_plain hreturn]
      exact .feed (hback hfront) hreturn hrest
  | case4 front c rest hc ih =>
    have hmore : '\n' ∉ c :: front := by
      rw [List.mem_cons, not_or]
      exact ⟨fun heq => hc heq.symm, hfront⟩
    have hnext := ih hmore
    rwa [List.reverse_cons, List.append_assoc, List.singleton_append] at hnext

/-- The lines of a text are the only ones that it is made of. -/
theorem madeOf_iff {text : List Char} {ls : List (List Char)} :
    MadeOf text ls ↔ ls = lines text := by
  constructor
  · intro h
    induction h with
    | nil => rfl
    | @last line hne hfeed =>
      have hsplit := linesFrom_append_of_no_feed hfeed [] []
      have hempty : ¬line.reverse.isEmpty = true := by simpa using hne
      rw [List.append_nil, List.append_nil, linesFrom, if_neg hempty, List.reverse_reverse]
        at hsplit
      exact hsplit.symm
    | @feed line rest ls hfeed hreturn _ ih =>
      rw [lines, linesFrom_append _ _ _ hfeed, List.reverse_nil, List.nil_append,
        dropReturn_of_plain hreturn, ih]
      rfl
    | @returnFeed line rest ls hfeed _ ih =>
      have hmore : '\n' ∉ line ++ ['\r'] := by simpa using hfeed
      have hsplit := linesFrom_append [] (line ++ ['\r']) rest hmore
      rw [List.append_assoc, List.singleton_append, List.reverse_nil, List.nil_append,
        dropReturn_append_return] at hsplit
      rw [lines, hsplit, ih]
      rfl
  · rintro rfl
    exact madeOf_linesFrom text List.not_mem_nil

end Text

/-- Code in the making. -/
structure Writer where
  /-- The text so far. -/
  text : List Char := []
  /-- What stands before the next line. -/
  indent : List Char := []
deriving DecidableEq, Repr

namespace Writer

/-- A line added; an empty one without indentation. -/
def line (w : Writer) (text : List Char) : Writer :=
  { w with text := w.text ++ (if text.isEmpty then [] else w.indent ++ text) ++ ['\n'] }

/-- An empty line added. -/
def blank (w : Writer) : Writer := { w with text := w.text ++ ['\n'] }

/-- One more tab from here on. -/
def deeper (w : Writer) : Writer := { w with indent := w.indent ++ ['\t'] }

/-- One tab less from here on. -/
def shallower (w : Writer) : Writer := { w with indent := w.indent.take (w.indent.length - 1) }

end Writer

mutual

/-- A step added to what is written. -/
def Code.write : Code → Writer → Writer
  | .line pieces, w => w.line (lineChars pieces)
  | .blank, w => w.blank
  | .indented body, w => (bodyWrite body w.deeper).shallower
  | .block body, w => (bodyWrite body (w.line ['\x7b']).deeper).shallower.line ['\x7d']
  | .scope none body, w => bodyWrite body w
  | .scope (some name) body, w =>
    if name = "" then bodyWrite body w
    else
      let opened := (w.line (lineChars ["namespace ", name])).line ['\x7b']
      (bodyWrite body opened.deeper).shallower.line ['\x7d']
  | .fragment body, w => (Text.lines (bodyWrite body {}).text).foldl Writer.line w

/-- Several steps added to what is written. -/
def bodyWrite : List Code → Writer → Writer
  | [], w => w
  | step :: rest, w => bodyWrite rest (step.write w)

end

namespace Writer

/-- The writer at a depth, with some text before. -/
def atDepth (depth : Nat) (before : List Char) : Writer := ⟨before, List.replicate depth '\t'⟩

/-- A line is added at the depth. -/
theorem line_atDepth (depth : Nat) (before text : List Char) :
    (Writer.atDepth depth before).line text = .atDepth depth (before ++ lineAt depth text) := by
  cases text <;> simp [Writer.atDepth, line, lineAt]

/-- Lines are added one after the other. -/
theorem foldl_line_atDepth (depth : Nat) (before : List Char) (texts : List (List Char)) :
    texts.foldl line (.atDepth depth before) = .atDepth depth (before ++ linesAt depth texts) := by
  induction texts generalizing before with
  | nil => simp [linesAt]
  | cons text rest ih =>
    rw [List.foldl_cons, line_atDepth, ih, linesAt, linesAt, List.flatMap_cons, List.append_assoc]

/-- One more tab is one level deeper. -/
theorem deeper_atDepth (depth : Nat) (before : List Char) :
    (Writer.atDepth depth before).deeper = .atDepth (depth + 1) before := by
  rw [Writer.atDepth, deeper, Writer.atDepth, List.replicate_succ']

/-- One tab less leads back. -/
theorem shallower_atDepth (depth : Nat) (before : List Char) :
    (Writer.atDepth (depth + 1) before).shallower = .atDepth depth before := by
  simp [Writer.atDepth, shallower]

end Writer

mutual

/-- A step adds its text at the depth of the writer, which keeps its depth. -/
theorem Code.write_atDepth (depth : Nat) : ∀ (c : Code) (before : List Char),
    c.write (.atDepth depth before) = .atDepth depth (before ++ c.chars depth)
  | .line pieces, before => by rw [Code.write, Writer.line_atDepth, Code.chars]
  | .blank, before => rfl
  | .indented body, before => by
    rw [Code.write, Writer.deeper_atDepth, bodyWrite_atDepth, Writer.shallower_atDepth, Code.chars]
  | .block body, before => by
    rw [Code.write, Writer.line_atDepth, Writer.deeper_atDepth, bodyWrite_atDepth,
      Writer.shallower_atDepth, Writer.line_atDepth, Code.chars, blockAt]
    simp only [List.append_assoc]
  | .scope none body, before => by rw [Code.write, bodyWrite_atDepth, Code.chars]
  | .scope (some name) body, before => by
    rw [Code.write, Code.chars]
    split
    · exact bodyWrite_atDepth depth body before
    · dsimp only
      rw [Writer.line_atDepth, Writer.line_atDepth, Writer.deeper_atDepth, bodyWrite_atDepth,
        Writer.shallower_atDepth, Writer.line_atDepth, blockAt]
      simp only [List.append_assoc]
  | .fragment body, before => by
    have hown := bodyWrite_atDepth 0 body []
    rw [List.nil_append] at hown
    have hstart : ({} : Writer) = .atDepth 0 [] := rfl
    have htext : (Writer.atDepth 0 (bodyChars 0 body)).text = bodyChars 0 body := rfl
    rw [Code.write, hstart, hown, htext, Writer.foldl_line_atDepth, Code.chars]

/-- Several steps add their text at the depth of the writer, which keeps its depth. -/
theorem bodyWrite_atDepth (depth : Nat) : ∀ (body : List Code) (before : List Char),
    bodyWrite body (.atDepth depth before) = .atDepth depth (before ++ bodyChars depth body)
  | [], before => by rw [bodyWrite, bodyChars, List.append_nil]
  | step :: rest, before => by
    rw [bodyWrite, Code.write_atDepth depth step before, bodyWrite_atDepth depth rest, bodyChars,
      List.append_assoc]

end

mutual

/-- The texts of lines and namespaces in a step stay on one line when they are written and read again:
they hold no line feed and end in no carriage return. -/
def Code.OneLined : Code → Prop
  | .line pieces => Text.IsPlainLine (lineChars pieces)
  | .blank => True
  | .indented body | .block body | .fragment body => bodyOneLined body
  | .scope name body => (∀ n, name = some n → Text.IsPlainLine n.toList) ∧ bodyOneLined body

/-- The texts of lines and namespaces in several steps stay on one line. -/
def bodyOneLined : List Code → Prop
  | [] => True
  | step :: rest => step.OneLined ∧ bodyOneLined rest

end

/-- A row that stays on one line does so one level deeper. -/
theorem isPlainLine_indentRow {row : Row} (h : Text.IsPlainLine row) :
    Text.IsPlainLine (indentRow row) := by
  cases row with
  | nil => exact h
  | cons c rest =>
    obtain ⟨hfeed, hreturn⟩ := h
    refine ⟨?_, ?_⟩
    · rw [indentRow, List.mem_cons, not_or]
      exact ⟨by decide, hfeed⟩
    · rwa [indentRow, List.getLast?_cons_cons]

/-- Rows that stay on one line each do so between braces. -/
theorem isPlainLine_braced {rows : List Row} (h : ∀ row ∈ rows, Text.IsPlainLine row) :
    ∀ row ∈ braced rows, Text.IsPlainLine row := by
  intro row hrow
  rw [braced, List.mem_cons, List.mem_append, List.mem_singleton, List.mem_map] at hrow
  rcases hrow with rfl | ⟨inner, hinner, rfl⟩ | rfl
  · exact ⟨by decide, by decide⟩
  · exact isPlainLine_indentRow (h inner hinner)
  · exact ⟨by decide, by decide⟩

/-- The line that opens a namespace stays on one line when its name does. -/
theorem isPlainLine_namespace {name : String} (hne : name ≠ "")
    (h : Text.IsPlainLine name.toList) : Text.IsPlainLine (lineChars ["namespace ", name]) := by
  have htext : lineChars ["namespace ", name] = "namespace ".toList ++ name.toList := by
    simp [lineChars, Piece.chars]
  have hempty : name.toList ≠ [] := by simpa using hne
  obtain ⟨hfeed, hreturn⟩ := h
  rw [htext]
  refine ⟨?_, ?_⟩
  · rw [List.mem_append, not_or]
    exact ⟨by decide, hfeed⟩
  · rwa [List.getLast?_append_of_ne_nil _ hempty]

/-- A fragment has the rows of its steps when these stay on one line each. -/
theorem fragmentRows_eq_bodyRows {body : List Code}
    (h : ∀ row ∈ bodyRows body, Text.IsPlainLine row) : fragmentRows body = bodyRows body := by
  rw [fragmentRows, bodyChars_zero, Text.lines_unlines _ h]

mutual

/-- The rows of a step stay on one line each when its texts do. -/
theorem Code.OneLined.isPlainLine : ∀ {c : Code}, c.OneLined → ∀ row ∈ c.rows, Text.IsPlainLine row
  | .line pieces, h, row, hrow => by
    rw [Code.OneLined] at h
    rw [Code.rows, List.mem_singleton] at hrow
    exact hrow ▸ h
  | .blank, _, row, hrow => by
    rw [Code.rows, List.mem_singleton] at hrow
    exact hrow ▸ ⟨by decide, by decide⟩
  | .indented body, h, row, hrow => by
    rw [Code.OneLined] at h
    rw [Code.rows] at hrow
    obtain ⟨inner, hinner, rfl⟩ := List.mem_map.1 hrow
    exact isPlainLine_indentRow (bodyOneLined.isPlainLine h inner hinner)
  | .block body, h, row, hrow => by
    rw [Code.OneLined] at h
    rw [Code.rows] at hrow
    exact isPlainLine_braced (bodyOneLined.isPlainLine h) row hrow
  | .scope none body, h, row, hrow => by
    rw [Code.OneLined] at h
    rw [Code.rows] at hrow
    exact bodyOneLined.isPlainLine h.2 row hrow
  | .scope (some name) body, h, row, hrow => by
    rw [Code.OneLined] at h
    rw [Code.rows] at hrow
    have hinner := bodyOneLined.isPlainLine h.2
    split at hrow
    · exact hinner row hrow
    · rename_i hne
      rcases List.mem_cons.1 hrow with rfl | hrow
      · exact isPlainLine_namespace hne (h.1 name rfl)
      · exact isPlainLine_braced hinner row hrow
  | .fragment body, h, row, hrow => by
    rw [Code.OneLined] at h
    have hinner := bodyOneLined.isPlainLine h
    rw [Code.rows, fragmentRows_eq_bodyRows hinner] at hrow
    exact hinner row hrow

/-- The rows of several steps stay on one line each when their texts do. -/
theorem bodyOneLined.isPlainLine : ∀ {body : List Code}, bodyOneLined body →
    ∀ row ∈ bodyRows body, Text.IsPlainLine row
  | [], _, row, hrow => by simp [bodyRows] at hrow
  | step :: rest, h, row, hrow => by
    rw [bodyOneLined] at h
    rw [bodyRows, List.mem_append] at hrow
    rcases hrow with hrow | hrow
    · exact h.1.isPlainLine row hrow
    · exact bodyOneLined.isPlainLine h.2 row hrow

end

/-- Code set as a fragment is written like the code itself when its texts stay on one line. -/
theorem chars_fragment_eq {body : List Code} (h : bodyOneLined body) (depth : Nat) :
    (Code.fragment body).chars depth = bodyChars depth body := by
  rw [Code.chars_eq_linesAt, Code.rows, fragmentRows_eq_bodyRows (bodyOneLined.isPlainLine h),
    bodyChars_eq_linesAt]

/-- A fragment is set in place line by line: the lines that its own text is made of are added in
order, each once, one tab a level before a line and none before an empty one. Code is written at the
depth of the writer, which keeps its depth. When the texts of its lines and namespaces stay on one
line, code that is set as a fragment is written as it is step by step. -/
theorem fragment_is_set_line_by_line (body : List Code) (depth : Nat) (before : List Char) :
    (∃ ls, Text.MadeOf (bodyChars 0 body) ls ∧
      (Code.fragment body).chars depth = ls.flatMap (fun line =>
        if line = [] then ['\n'] else List.replicate depth '\t' ++ line ++ ['\n']) ∧
      (Code.fragment body).write (.atDepth depth before) =
        .atDepth depth (before ++ (Code.fragment body).chars depth)) ∧
    bodyWrite body (.atDepth depth before) = .atDepth depth (before ++ bodyChars depth body) ∧
    (bodyOneLined body →
      (Code.fragment body).write (.atDepth depth before) =
        bodyWrite body (.atDepth depth before)) := by
  have hwrite := (Code.fragment body).write_atDepth depth before
  refine ⟨⟨Text.lines (bodyChars 0 body), Text.madeOf_iff.2 rfl, ?_, hwrite⟩,
    bodyWrite_atDepth depth body before, fun hlined => ?_⟩
  · rw [Code.chars, linesAt]
    refine List.flatMap_congr fun line _ => ?_
    simp only [lineAt, List.isEmpty_iff]
  · rw [hwrite, bodyWrite_atDepth, chars_fragment_eq hlined]

/-- A namespace with a fragment in it may be set two levels deep in either way. -/
theorem namespace_is_set_two_levels_deep :
    let body : List Code :=
      [.scope (some "Game") [.fragment [.line ["if (x)"], .block [.line ["y();"], .blank]]]]
    bodyOneLined body ∧
      (Code.fragment body).write (.atDepth 2 []) = bodyWrite body (.atDepth 2 []) ∧
      (bodyWrite body (.atDepth 2 [])).text =
        ("\t\tnamespace Game\n\t\t\x7b\n\t\t\tif (x)\n\t\t\t\x7b\n\t\t\t\ty();\n\n" ++
          "\t\t\t\x7d\n\t\t\x7d\n").toList := by
  intro body
  have hlined : bodyOneLined body := by
    simp only [body, bodyOneLined, Code.OneLined, Text.IsPlainLine, Option.some.injEq,
      forall_eq', and_true]
    decide
  exact ⟨hlined, (fragment_is_set_line_by_line body 2 []).2.2 hlined, by decide +kernel⟩

end SceneWiring
