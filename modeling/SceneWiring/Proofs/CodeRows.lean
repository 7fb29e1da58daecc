import SceneWiring.Proofs.Templates
/-!
# Rows of code

Code is written row by row: a block is its rows one level deeper between braces, and a fragment is
the lines of its own text. Main statements: the text of code is its rows at a depth, each followed
by a line feed, and the rows of a fragment that is plain hold text and no line feed.
-/

namespace SceneWiring

/-- The text of a line, without its line feed. -/
abbrev Row := List Char

/-- A row one level deeper; an empty row stays as it is. -/
def indentRow : Row → Row
  | [] => []
  | c :: rest => '\t' :: c :: rest

/-- A row one level up. -/
def dedentRow : Row → Row
  | '\t' :: rest => rest
  | row => row

/-- Going deeper and up again gives the row back. -/
@[simp]
theorem dedentRow_indentRow (row : Row) : dedentRow (indentRow row) = row := by
  cases row <;> rfl

/-- Only an empty row is empty one level deeper. -/
@[simp]
theorem indentRow_eq_nil_iff {row : Row} : indentRow row = [] ↔ row = [] := by
  cases row <;> simp [indentRow]

/-- What a row says it says one level deeper. -/
theorem mem_indentRow {c : Char} {row : Row} (hc : c ∈ row) : c ∈ indentRow row := by
  cases row with
  | nil => cases hc
  | cons d rest => exact List.mem_cons_of_mem _ hc

/-- Rows between braces, one level deeper. -/
def braced (rows : List Row) : List Row := ['\x7b'] :: (rows.map indentRow ++ [['\x7d']])

/-- The rows of a fragment: the lines of its own text. -/
def fragmentRows (body : List Code) : List Row := Text.lines (bodyChars 0 body)

mutual

/-- The rows of a step. -/
def Code.rows : Code → List Row
  | .line pieces => [lineChars pieces]
  | .blank => [[]]
  | .indented body => (bodyRows body).map indentRow
  | .block body => braced (bodyRows body)
  | .scope none body => bodyRows body
  | .scope (some name) body =>
    if name = "" then bodyRows body else lineChars ["namespace ", name] :: braced (bodyRows body)
  | .fragment body => fragmentRows body

/-- The rows of several steps. -/
def bodyRows : List Code → List Row
  | [] => []
  | step :: rest => step.rows ++ bodyRows rest

end

/-- The rows of several steps are the rows of each, in order. -/
theorem bodyRows_eq_flatMap (body : List Code) : bodyRows body = body.flatMap Code.rows := by
  induction body with
  | nil => rfl
  | cons step rest ih => rw [bodyRows, ih, List.flatMap_cons]

/-- Steps one after the other give their rows one after the other. -/
theorem bodyRows_append (first second : List Code) :
    bodyRows (first ++ second) = bodyRows first ++ bodyRows second := by
  simp [bodyRows_eq_flatMap]

/-- Rows one after the other at a depth. -/
theorem linesAt_append (depth : Nat) (first second : List Row) :
    linesAt depth (first ++ second) = linesAt depth first ++ linesAt depth second :=
  List.flatMap_append

/-- Rows that are one level deeper stand at the next depth. -/
theorem linesAt_map_indentRow (depth : Nat) (rows : List Row) :
    linesAt depth (rows.map indentRow) = linesAt (depth + 1) rows := by
  have hrow (row : Row) : lineAt depth (indentRow row) = lineAt (depth + 1) row := by
    cases row with
    | nil => rfl
    | cons c rest => simp [lineAt, indentRow, List.replicate_succ']
  simp only [linesAt, List.flatMap_map, hrow]

/-- A block is written as its rows between braces. -/
theorem linesAt_braced (depth : Nat) (rows : List Row) :
    linesAt depth (braced rows) = blockAt depth (linesAt (depth + 1) rows) := by
  rw [braced, ← List.singleton_append, linesAt_append, linesAt_append, linesAt_map_indentRow,
    blockAt]
  simp [linesAt]

mutual

/-- A step is written as its rows at a depth. -/
theorem Code.chars_eq_linesAt (depth : Nat) : ∀ c : Code, c.chars depth = linesAt depth c.rows
  | .line pieces => by simp [Code.chars, Code.rows, linesAt]
  | .blank => rfl
  | .indented body => by
    rw [Code.chars, Code.rows, linesAt_map_indentRow, bodyChars_eq_linesAt]
  | .block body => by
    rw [Code.chars, Code.rows, linesAt_braced, bodyChars_eq_linesAt]
  | .scope none body => by
    rw [Code.chars, Code.rows, bodyChars_eq_linesAt]
  | .scope (some name) body => by
    rw [Code.chars, Code.rows, bodyChars_eq_linesAt depth body,
      bodyChars_eq_linesAt (depth + 1) body]
    split
    · rfl
    · rw [← linesAt_braced]
      rfl
  | .fragment body => by rw [Code.chars, Code.rows, fragmentRows]

/-- Several steps are written as their rows at a depth. -/
theorem bodyChars_eq_linesAt (depth : Nat) :
    ∀ body : List Code, bodyChars depth body = linesAt depth (bodyRows body)
  | [] => rfl
  | step :: rest => by
    rw [bodyChars, bodyRows, linesAt_append, Code.chars_eq_linesAt depth step,
      bodyChars_eq_linesAt depth rest]

end

/-- The text of several steps is their rows, each followed by a line feed. -/
theorem bodyChars_zero (body : List Code) : bodyChars 0 body = Text.unlines (bodyRows body) := by
  have hrow (row : Row) : lineAt 0 row = row ++ ['\n'] := by
    cases row <;> simp [lineAt]
  rw [bodyChars_eq_linesAt, linesAt, Text.unlines, funext hrow]

/-- Text is split at line feeds into rows without a line feed that each end in one, and the rest. -/
theorem splitOn_unlines {rows : List Row} (h : ∀ row ∈ rows, '\n' ∉ row) :
    (Text.unlines rows).splitOn '\n' = rows ++ [[]] := by
  induction rows with
  | nil => rfl
  | cons row rest ih =>
    have hrow := h row List.mem_cons_self
    have hrest := ih fun r hr => h r (List.mem_cons_of_mem _ hr)
    rw [Text.unlines] at hrest ⊢
    rw [List.flatMap_cons, List.append_assoc, List.singleton_append,
      List.splitOn_append_cons_self_of_not_mem hrow, hrest, List.cons_append]

namespace Text

/-- A carriage return at the end is all that is dropped. -/
theorem dropReturn_sublist (line : List Char) : (dropReturn line).Sublist line := by
  fun_induction dropReturn line with
  | case1 => exact .refl _
  | case2 => exact List.nil_sublist _
  | case3 c rest hne ih => exact ih.cons_cons c

/-- Only carriage returns are dropped. -/
theorem mem_dropReturn {c : Char} {line : List Char} (hc : c ∈ line) (hne : c ≠ '\r') :
    c ∈ dropReturn line := by
  fun_induction dropReturn line with
  | case1 => exact hc
  | case2 => exact absurd (List.mem_singleton.1 hc) hne
  | case3 d rest _ ih =>
    rcases List.mem_cons.1 hc with rfl | hc
    · exact List.mem_cons_self
    · exact List.mem_cons_of_mem _ (ih hc)

/-- Rows without a line feed are the lines of the text that they make, less a carriage return at
the end of each. -/
theorem lines_unlines_of_feed_not_mem {rows : List (List Char)} (h : ∀ row ∈ rows, '\n' ∉ row) :
    lines (unlines rows) = rows.map dropReturn := by
  induction rows with
  | nil => rfl
  | cons row rest ih =>
    have hrow := h row List.mem_cons_self
    have hrest := ih fun r hr => h r (List.mem_cons_of_mem _ hr)
    rw [lines, unlines] at hrest ⊢
    rw [List.flatMap_cons, List.append_assoc, List.singleton_append, linesFrom_append _ _ _ hrow,
      hrest]
    rfl

/-- No line holds a line feed, when what stands before in the first one holds none. -/
theorem feed_not_mem_of_mem_linesFrom {front text line : List Char} (hfront : '\n' ∉ front)
    (h : line ∈ linesFrom front text) : '\n' ∉ line := by
  fun_induction linesFrom front text with
  | case1 => cases h
  | case2 front _ =>
    rw [List.mem_singleton.1 h, List.mem_reverse]
    exact hfront
  | case3 front rest ih =>
    rcases List.mem_cons.1 h with rfl | hline
    · exact fun hmem => hfront (List.mem_reverse.1 ((dropReturn_sublist _).mem hmem))
    · exact ih List.not_mem_nil hline
  | case4 front c rest hne ih =>
    have hmore : '\n' ∉ c :: front := by
      rw [List.mem_cons, not_or]
      exact ⟨fun heq => hne heq.symm, hfront⟩
    exact ih hmore h

end Text

/-- A row with something to read: no line feed, and a character that is no carriage return. -/
structure Row.Full (row : Row) : Prop where
  /-- The row is one line. -/
  feed_not_mem : '\n' ∉ row
  /-- There is text in it. -/
  exists_text : ∃ c ∈ row, c ≠ '\r'

namespace Row.Full

variable {row : Row}

/-- A row with something to read is not empty. -/
theorem ne_nil (h : Row.Full row) : row ≠ [] := by
  obtain ⟨c, hc, -⟩ := h.exists_text
  exact List.ne_nil_of_mem hc

/-- One level deeper there is as much to read. -/
theorem indentRow (h : Row.Full row) : Row.Full (indentRow row) := by
  obtain ⟨hfeed, c, hc, hne⟩ := h
  cases row with
  | nil => cases hc
  | cons d rest =>
    refine ⟨?_, c, mem_indentRow hc, hne⟩
    rw [SceneWiring.indentRow, List.mem_cons, not_or]
    exact ⟨by decide, hfeed⟩

/-- Without a carriage return at the end there is as much to read. -/
theorem dropReturn (h : Row.Full row) : Row.Full (Text.dropReturn row) := by
  obtain ⟨hfeed, c, hc, hne⟩ := h
  exact ⟨fun hmem => hfeed ((Text.dropReturn_sublist row).mem hmem), c,
    Text.mem_dropReturn hc hne, hne⟩

/-- Braces are something to read. -/
theorem braced {rows : List Row} (h : ∀ row ∈ rows, Row.Full row) :
    ∀ row ∈ braced rows, Row.Full row := by
  intro row hrow
  rw [SceneWiring.braced, List.mem_cons, List.mem_append, List.mem_singleton, List.mem_map] at hrow
  rcases hrow with rfl | ⟨inner, hinner, rfl⟩ | rfl
  · exact ⟨by decide, '\x7b', by decide, by decide⟩
  · exact (h inner hinner).indentRow
  · exact ⟨by decide, '\x7d', by decide, by decide⟩

end Row.Full

/-- A piece of code breaks no line; a literal never does. -/
def Piece.Unbroken : Piece → Prop
  | .raw text => '\n' ∉ text.toList
  | .literal _ => True

/-- There is something to read in a piece of code. -/
def Piece.Readable : Piece → Prop
  | .raw text => text.toList.any (· != '\r') = true
  | .literal _ => True

mutual

/-- A step of a statement: lines with something to read, in indented parts and blocks. -/
def Code.Plain : Code → Prop
  | .line pieces => (∀ p ∈ pieces, p.Unbroken) ∧ ∃ p ∈ pieces, p.Readable
  | .indented body | .block body => bodyPlain body
  | .blank | .scope _ _ | .fragment _ => False

/-- Steps of a statement. -/
def bodyPlain : List Code → Prop
  | [] => True
  | step :: rest => step.Plain ∧ bodyPlain rest

end

/-- Steps are those of a statement when each is. -/
theorem bodyPlain_iff {body : List Code} : bodyPlain body ↔ ∀ c ∈ body, c.Plain := by
  induction body with
  | nil => simp [bodyPlain]
  | cons step rest ih => rw [bodyPlain, ih, List.forall_mem_cons]

/-- A line of unbroken pieces is unbroken. -/
theorem feed_not_mem_lineChars {pieces : List Piece} (h : ∀ p ∈ pieces, p.Unbroken) :
    '\n' ∉ lineChars pieces := by
  intro hmem
  obtain ⟨p, hp, hfeed⟩ := List.mem_flatMap.1 hmem
  cases p with
  | raw text => exact h _ hp hfeed
  | literal text => exact Text.feed_not_mem_literalChars _ hfeed

/-- There is something to read in a line with a readable piece. -/
theorem exists_text_lineChars {pieces : List Piece} (h : ∃ p ∈ pieces, p.Readable) :
    ∃ c ∈ lineChars pieces, c ≠ '\r' := by
  obtain ⟨p, hp, hreadable⟩ := h
  have hpiece : ∃ c ∈ p.chars, c ≠ '\r' := by
    cases p with
    | raw text => simpa [Piece.Readable, Piece.chars] using hreadable
    | literal text => exact ⟨'"', List.mem_cons_self, by decide⟩
  obtain ⟨c, hc, hne⟩ := hpiece
  exact ⟨c, List.mem_flatMap.2 ⟨p, hp, hc⟩, hne⟩

mutual

/-- The rows of a step of a statement have something to read. -/
theorem Code.Plain.rows_full : ∀ {c : Code}, c.Plain → ∀ row ∈ c.rows, Row.Full row
  | .line pieces, h, row, hrow => by
    rw [Code.Plain] at h
    rw [Code.rows, List.mem_singleton] at hrow
    rw [hrow]
    exact ⟨feed_not_mem_lineChars h.1, exists_text_lineChars h.2⟩
  | .indented body, h, row, hrow => by
    rw [Code.Plain] at h
    rw [Code.rows] at hrow
    obtain ⟨inner, hinner, rfl⟩ := List.mem_map.1 hrow
    exact (bodyPlain_rows_full h inner hinner).indentRow
  | .block body, h, row, hrow => by
    rw [Code.Plain] at h
    rw [Code.rows] at hrow
    exact Row.Full.braced (bodyPlain_rows_full h) row hrow
  | .blank, h, _, _ => by simp [Code.Plain] at h
  | .scope _ _, h, _, _ => by simp [Code.Plain] at h
  | .fragment _, h, _, _ => by simp [Code.Plain] at h

/-- The rows of a statement have something to read. -/
theorem bodyPlain_rows_full : ∀ {body : List Code}, bodyPlain body →
    ∀ row ∈ bodyRows body, Row.Full row
  | [], _, row, hrow => by simp [bodyRows] at hrow
  | step :: rest, h, row, hrow => by
    rw [bodyPlain] at h
    rw [bodyRows, List.mem_append] at hrow
    rcases hrow with hrow | hrow
    · exact h.1.rows_full row hrow
    · exact bodyPlain_rows_full h.2 row hrow

end

/-- The rows of a fragment are those of its steps, less a carriage return at the end of each, when
they hold no line feed. -/
theorem fragmentRows_eq_map {body : List Code} (h : ∀ row ∈ bodyRows body, '\n' ∉ row) :
    fragmentRows body = (bodyRows body).map Text.dropReturn := by
  rw [fragmentRows, bodyChars_zero, Text.lines_unlines_of_feed_not_mem h]

/-- The rows of a statement hold no line feed. -/
theorem feed_not_mem_of_plain {body : List Code} (h : bodyPlain body) :
    ∀ row ∈ bodyRows body, '\n' ∉ row :=
  fun row hrow => (bodyPlain_rows_full h row hrow).feed_not_mem

end SceneWiring
