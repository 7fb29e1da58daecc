/-!
# Lines of a text

A text is split after each line feed. A line feed ends a line and belongs to none, a carriage
return right before it goes with it, and the text after the last line feed is a line only when it is
not empty. Main statement: joining lines that hold no line feed and end in no carriage return, each
followed by a line feed, and splitting again gives the lines back.
-/

namespace SceneWiring.Text

/-- A line without the carriage return that precedes its line feed. -/
def dropReturn : List Char → List Char
  | [] => []
  | ['\r'] => []
  | c :: rest => c :: dropReturn rest

/-- The lines of a text, by recursion on it: `line` is what stands before in the same line, last
character first. -/
def linesFrom (line : List Char) : List Char → List (List Char)
  | [] => if line.isEmpty then [] else [line.reverse]
  | '\n' :: rest => dropReturn line.reverse :: linesFrom [] rest
  | c :: rest => linesFrom (c :: line) rest

/-- The lines of a text. -/
def lines (text : List Char) : List (List Char) := linesFrom [] text

/-- Lines put together again, each followed by a line feed. -/
def unlines (ls : List (List Char)) : List Char := ls.flatMap (· ++ ['\n'])

/-- A line that is its own text: no line feed inside, no carriage return at its end. -/
def IsPlainLine (line : List Char) : Prop := '\n' ∉ line ∧ line.getLast? ≠ some '\r'

theorem dropReturn_of_plain {line : List Char} (h : line.getLast? ≠ some '\r') :
    dropReturn line = line := by
  fun_induction dropReturn line with
  | case1 => rfl
  | case2 => simp at h
  | case3 c rest hne ih =>
    cases rest with
    | nil => rfl
    | cons d more => rw [ih (by simpa [List.getLast?_cons_cons] using h)]

theorem linesFrom_append (front line more : List Char) (h : '\n' ∉ line) :
    linesFrom front (line ++ '\n' :: more) =
      dropReturn (front.reverse ++ line) :: linesFrom [] more := by
  induction line generalizing front with
  | nil => simp [linesFrom]
  | cons c rest ih =>
    have hc : c ≠ '\n' := fun e => h (e ▸ List.mem_cons_self)
    have hr : '\n' ∉ rest := fun m => h (List.mem_cons_of_mem _ m)
    rw [List.cons_append, linesFrom, ih _ hr]
    · simp
    · exact hc

/-- Plain lines survive being put together and split again. -/
theorem lines_unlines (ls : List (List Char)) (h : ∀ line ∈ ls, IsPlainLine line) :
    lines (unlines ls) = ls := by
  induction ls with
  | nil => rfl
  | cons line rest ih =>
    obtain ⟨hfeed, hreturn⟩ := h line List.mem_cons_self
    have hrest := ih fun l hl => h l (List.mem_cons_of_mem _ hl)
    rw [lines] at hrest ⊢
    rw [unlines, List.flatMap_cons, List.append_assoc, List.singleton_append,
      linesFrom_append _ _ _ hfeed, List.reverse_nil, List.nil_append, dropReturn_of_plain hreturn]
    exact congrArg (line :: ·) hrest

end SceneWiring.Text
