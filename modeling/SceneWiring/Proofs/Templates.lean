import Mathlib.Data.List.Forall2
import SceneWiring.Code
/-!
# Texts of one template

Two texts come of one template when they have the same code with string literals at the same places;
a relation says which texts may stand in literals that correspond. No literal breaks a line, so the
lines of such texts come of one template each, and code trees that differ only in the texts of their
literals are written as such texts.
-/

namespace SceneWiring

/-- A character of code, or a hole for a literal with the text that it gets on either side. -/
inductive Mark where
  /-- A character that stands on both sides. -/
  | code (c : Char)
  /-- The literal of the first text on the left, that of the second on the right. -/
  | hole (left right : String)

/-- What stands on the left at a mark. -/
def Mark.left : Mark → List Char
  | .code c => [c]
  | .hole text _ => Text.literalChars text.toList

/-- What stands on the right at a mark. -/
def Mark.right : Mark → List Char
  | .code c => [c]
  | .hole _ text => Text.literalChars text.toList

/-- Two texts come of one template: they are its marks filled in, and the texts for the two sides of
each hole are related. -/
def SameTemplate (r : String → String → Prop) (xs ys : List Char) : Prop :=
  ∃ marks : List Mark, marks.flatMap Mark.left = xs ∧ marks.flatMap Mark.right = ys ∧
    ∀ left right, .hole left right ∈ marks → r left right

namespace Text

/-- A literal breaks no line. -/
theorem feed_not_mem_literalChars (text : List Char) : '\n' ∉ literalChars text := by
  intro hmem
  rw [literalChars, List.cons_append, List.mem_cons, List.mem_append, List.mem_flatMap] at hmem
  rcases hmem with hquote | ⟨c, -, hc⟩ | hquote
  · exact absurd hquote (by decide)
  · exact (escape_no_break c).1 hc
  · exact absurd hquote (by decide)

/-- A literal ends in a quotation mark. -/
theorem getLast?_literalChars (text : List Char) : (literalChars text).getLast? = some '"' := by
  rw [literalChars, List.getLast?_append]
  rfl

/-- Text without a line feed only makes the line longer that it stands in. -/
theorem linesFrom_append_of_no_feed {text : List Char} (h : '\n' ∉ text) (line rest : List Char) :
    linesFrom line (text ++ rest) = linesFrom (text.reverse ++ line) rest := by
  induction text generalizing line with
  | nil => rfl
  | cons c more ih =>
    have hc : c ≠ '\n' := fun heq => h (heq ▸ List.mem_cons_self)
    have hmore : '\n' ∉ more := fun hmem => h (List.mem_cons_of_mem _ hmem)
    rw [List.cons_append, linesFrom, ih hmore, List.reverse_cons, List.append_assoc]
    · rfl
    · exact hc

/-- Only a carriage return with nothing behind it is dropped. -/
theorem dropReturn_cons {c : Char} {rest : List Char} (h : c ≠ '\r' ∨ rest ≠ []) :
    dropReturn (c :: rest) = c :: dropReturn rest := by
  rw [dropReturn]
  intro hc hrest
  rcases h with hne | hne
  · exact hne hc
  · exact hne hrest

/-- A carriage return is dropped at the end of what stands last. -/
theorem dropReturn_append {before : List Char} (h : before.getLast? ≠ some '\r')
    (rest : List Char) : dropReturn (before ++ rest) = before ++ dropReturn rest := by
  induction before with
  | nil => rfl
  | cons c before ih =>
    cases before with
    | nil =>
      have hc : c ≠ '\r' := by simpa using h
      exact dropReturn_cons (.inl hc)
    | cons d before =>
      rw [List.getLast?_cons_cons] at h
      rw [List.cons_append, dropReturn_cons (.inr (by simp)), ih h]
      rfl

end Text

/-- Text that is not split stands before the first part. -/
theorem splitOn_append_of_not_mem {α : Type} [BEq α] [LawfulBEq α] {a : α} {before : List α}
    (h : a ∉ before) (rest : List α) :
    (before ++ rest).splitOn a = (rest.splitOn a).modifyHead (before ++ ·) := by
  induction before with
  | nil =>
    cases hparts : rest.splitOn a <;> simp [hparts]
  | cons b before ih =>
    obtain ⟨hb, hbefore⟩ := not_or.1 (List.mem_cons.not.1 h)
    have hne : (b == a) = false := beq_eq_false_iff_ne.2 (Ne.symm hb)
    rw [List.cons_append, List.splitOn_cons_eq_if_modifyHead, hne, ih hbefore]
    cases hparts : rest.splitOn a <;> simp

namespace SameTemplate

variable {r : String → String → Prop} {xs ys us vs : List Char}

/-- No text comes of the empty template. -/
theorem nil : SameTemplate r [] [] := ⟨[], rfl, rfl, by simp⟩

/-- A character in front stands on both sides. -/
theorem code (c : Char) (h : SameTemplate r xs ys) : SameTemplate r (c :: xs) (c :: ys) := by
  obtain ⟨marks, rfl, rfl, hmarks⟩ := h
  refine ⟨.code c :: marks, rfl, rfl, fun left right hmem => hmarks left right ?_⟩
  simpa using hmem

/-- Literals in front are of related texts. -/
theorem hole {f g : String} (hfg : r f g) (h : SameTemplate r xs ys) :
    SameTemplate r (Text.literalChars f.toList ++ xs) (Text.literalChars g.toList ++ ys) := by
  obtain ⟨marks, rfl, rfl, hmarks⟩ := h
  refine ⟨.hole f g :: marks, rfl, rfl, fun left right hmem => ?_⟩
  rcases List.mem_cons.1 hmem with heq | hmem
  · cases heq
    exact hfg
  · exact hmarks left right hmem

/-- What holds of empty texts, and is kept by a character and by related literals in front, holds of
texts of one template. -/
@[elab_as_elim]
theorem induct {motive : ∀ xs ys, SameTemplate r xs ys → Prop} (nil : motive [] [] nil)
    (code : ∀ c xs ys (h : SameTemplate r xs ys), motive xs ys h → motive _ _ (h.code c))
    (hole : ∀ f g xs ys (hfg : r f g) (h : SameTemplate r xs ys), motive xs ys h →
      motive _ _ (hole hfg h))
    {xs ys : List Char} (h : SameTemplate r xs ys) : motive xs ys h := by
  obtain ⟨marks, rfl, rfl, hmarks⟩ := h
  induction marks with
  | nil => exact nil
  | cons mark marks ih =>
    have hrest : ∀ left right, Mark.hole left right ∈ marks → r left right := fun _ _ hmem =>
      hmarks _ _ (List.mem_cons_of_mem _ hmem)
    cases mark with
    | code c => exact code c _ _ ⟨marks, rfl, rfl, hrest⟩ (ih hrest)
    | hole f g =>
      exact hole f g _ _ (hmarks f g List.mem_cons_self) ⟨marks, rfl, rfl, hrest⟩ (ih hrest)

/-- A text comes of the template without holes. -/
theorem refl (xs : List Char) : SameTemplate r xs xs := by
  induction xs with
  | nil => exact nil
  | cons c rest ih => exact code c ih

/-- Templates are put behind each other. -/
theorem append (h : SameTemplate r xs ys) (h' : SameTemplate r us vs) :
    SameTemplate r (xs ++ us) (ys ++ vs) := by
  induction h using induct with
  | nil => exact h'
  | code c xs ys _ ih => exact code c ih
  | hole f g xs ys hfg _ ih =>
    rw [List.append_assoc, List.append_assoc]
    exact hole hfg ih

/-- Parts of one template each, put behind each other. -/
theorem flatMap {α β : Type} {s : α → β → Prop} {f : α → List Char} {g : β → List Char}
    (hfg : ∀ a b, s a b → SameTemplate r (f a) (g b)) {as : List α} {bs : List β}
    (h : List.Forall₂ s as bs) : SameTemplate r (as.flatMap f) (bs.flatMap g) := by
  induction h with
  | nil => exact nil
  | cons hab _ ih => exact (hfg _ _ hab).append ih

/-- Of two texts of one template both are empty or none is. -/
theorem isEmpty_eq (h : SameTemplate r xs ys) : xs.isEmpty = ys.isEmpty := by
  induction h using induct with
  | nil => rfl
  | code => rfl
  | hole => rfl

/-- One of two texts of one template is empty exactly when the other is. -/
theorem eq_nil_iff (h : SameTemplate r xs ys) : xs = [] ↔ ys = [] := by
  rw [← List.isEmpty_iff, h.isEmpty_eq, List.isEmpty_iff]

/-- Both texts lose a carriage return at the end, or none does. -/
theorem dropReturn (h : SameTemplate r xs ys) :
    SameTemplate r (Text.dropReturn xs) (Text.dropReturn ys) := by
  have hquote (text : List Char) : (Text.literalChars text).getLast? ≠ some '\r' := by
    rw [Text.getLast?_literalChars]
    decide
  induction h using induct with
  | nil => exact nil
  | code c xs ys h ih =>
    by_cases hdropped : c = '\r' ∧ xs = []
    · obtain ⟨rfl, hxs⟩ := hdropped
      rw [hxs, h.eq_nil_iff.1 hxs]
      exact nil
    · have hkept : c ≠ '\r' ∨ xs ≠ [] := not_and_or.1 hdropped
      have hkept' : c ≠ '\r' ∨ ys ≠ [] := hkept.imp_right (not_congr h.eq_nil_iff).1
      rw [Text.dropReturn_cons hkept, Text.dropReturn_cons hkept']
      exact code c ih
  | hole f g xs ys hfg _ ih =>
    rw [Text.dropReturn_append (hquote _), Text.dropReturn_append (hquote _)]
    exact hole hfg ih

/-- The lines of two texts of one template come of one template each. -/
theorem lines (h : SameTemplate r xs ys) :
    List.Forall₂ (SameTemplate r) (Text.lines xs) (Text.lines ys) := by
  have hfrom (us vs : List Char) (huv : SameTemplate r us vs) :
      List.Forall₂ (SameTemplate r) (Text.linesFrom us.reverse xs)
        (Text.linesFrom vs.reverse ys) := by
    induction h using induct generalizing us vs with
    | nil =>
      have hempty : us.reverse.isEmpty = vs.reverse.isEmpty := by
        simpa using huv.isEmpty_eq
      rw [Text.linesFrom, Text.linesFrom, ← hempty]
      split
      · exact .nil
      · rw [List.reverse_reverse, List.reverse_reverse]
        exact .cons huv .nil
    | code c xs ys _ ih =>
      by_cases hfeed : c = '\n'
      · subst hfeed
        rw [Text.linesFrom, Text.linesFrom, List.reverse_reverse, List.reverse_reverse]
        exact .cons huv.dropReturn (ih [] [] nil)
      · have hnext := ih (us ++ [c]) (vs ++ [c]) (huv.append (refl [c]))
        rw [List.reverse_append, List.reverse_append] at hnext
        rw [Text.linesFrom, Text.linesFrom]
        · exact hnext
        · exact hfeed
        · exact hfeed
    | hole f g xs ys hfg _ ih =>
      have hholes := hole hfg nil
      rw [List.append_nil, List.append_nil] at hholes
      have hnext := ih _ _ (huv.append hholes)
      rw [List.reverse_append, List.reverse_append] at hnext
      rw [Text.linesFrom_append_of_no_feed (Text.feed_not_mem_literalChars _),
        Text.linesFrom_append_of_no_feed (Text.feed_not_mem_literalChars _)]
      exact hnext
  exact hfrom [] [] nil

/-- The parts between the line feeds of two texts of one template come of one template each. -/
theorem splitOn (h : SameTemplate r xs ys) :
    List.Forall₂ (SameTemplate r) (xs.splitOn '\n') (ys.splitOn '\n') := by
  have hhead {ls ms : List (List Char)} {f g : List Char → List Char}
      (hfg : ∀ us vs, SameTemplate r us vs → SameTemplate r (f us) (g vs))
      (hparts : List.Forall₂ (SameTemplate r) ls ms) :
      List.Forall₂ (SameTemplate r) (ls.modifyHead f) (ms.modifyHead g) := by
    cases hparts with
    | nil => exact .nil
    | cons hline hrest => exact .cons (hfg _ _ hline) hrest
  induction h using induct with
  | nil =>
    rw [List.splitOn_nil]
    exact .cons nil .nil
  | code c xs ys _ ih =>
    rw [List.splitOn_cons_eq_if_modifyHead, List.splitOn_cons_eq_if_modifyHead]
    split
    · exact .cons nil ih
    · exact hhead (fun _ _ huv => code c huv) ih
  | hole f g xs ys hfg _ ih =>
    rw [splitOn_append_of_not_mem (Text.feed_not_mem_literalChars _),
      splitOn_append_of_not_mem (Text.feed_not_mem_literalChars _)]
    exact hhead (fun _ _ huv => hole hfg huv) ih

/-- Lines of one template are set at the same depth. -/
theorem lineAt (depth : Nat) (h : SameTemplate r xs ys) :
    SameTemplate r (lineAt depth xs) (lineAt depth ys) := by
  unfold SceneWiring.lineAt
  rw [← h.isEmpty_eq]
  split
  · exact refl _
  · exact ((refl _).append h).append (refl _)

end SameTemplate

/-- Two pieces of a line are the same, or literals of related texts. -/
inductive Piece.Alike (r : String → String → Prop) : Piece → Piece → Prop
  | same (p : Piece) : Alike r p p
  | literal {f g : String} (h : r f g) : Alike r (.literal f) (.literal g)

/-- Two steps of code are the same up to literals of related texts. -/
inductive Code.Alike (r : String → String → Prop) : Code → Code → Prop
  | same (c : Code) : Alike r c c
  | line {ps qs : List Piece} (h : List.Forall₂ (Piece.Alike r) ps qs) :
    Alike r (.line ps) (.line qs)
  | indented {b c : List Code} (h : List.Forall₂ (Alike r) b c) :
    Alike r (.indented b) (.indented c)
  | block {b c : List Code} (h : List.Forall₂ (Alike r) b c) : Alike r (.block b) (.block c)
  | scope (name : Option String) {b c : List Code} (h : List.Forall₂ (Alike r) b c) :
    Alike r (.scope name b) (.scope name c)
  | fragment {b c : List Code} (h : List.Forall₂ (Alike r) b c) :
    Alike r (.fragment b) (.fragment c)

variable {r : String → String → Prop}

/-- Pieces that are alike are written as texts of one template. -/
theorem Piece.Alike.chars {p q : Piece} (h : p.Alike r q) : SameTemplate r p.chars q.chars := by
  cases h with
  | same => exact .refl _
  | literal h =>
    have hhole := SameTemplate.hole h .nil
    rwa [List.append_nil, List.append_nil] at hhole

/-- A block around texts of one template is a text of one template. -/
theorem SameTemplate.blockAt (depth : Nat) {xs ys : List Char} (h : SameTemplate r xs ys) :
    SameTemplate r (blockAt depth xs) (blockAt depth ys) :=
  ((refl _).append h).append (refl _)

mutual

/-- Steps that are alike are written as texts of one template. -/
theorem Code.Alike.chars (depth : Nat) :
    ∀ {c d : Code}, c.Alike r d → SameTemplate r (c.chars depth) (d.chars depth)
  | _, _, .same c => .refl _
  | _, _, .line h => by
    rw [Code.chars, Code.chars]
    exact (SameTemplate.flatMap (fun _ _ hpiece => hpiece.chars) h).lineAt depth
  | _, _, .indented h => by
    rw [Code.chars, Code.chars]
    exact bodyAlike_chars (depth + 1) h
  | _, _, .block h => by
    rw [Code.chars, Code.chars]
    exact (bodyAlike_chars (depth + 1) h).blockAt depth
  | _, _, .scope none h => by
    rw [Code.chars, Code.chars]
    exact bodyAlike_chars depth h
  | _, _, .scope (some name) h => by
    rw [Code.chars, Code.chars]
    split
    · exact bodyAlike_chars depth h
    · exact (SameTemplate.refl _).append ((bodyAlike_chars (depth + 1) h).blockAt depth)
  | _, _, .fragment h => by
    rw [Code.chars, Code.chars]
    exact SameTemplate.flatMap (fun _ _ hline => hline.lineAt depth) (bodyAlike_chars 0 h).lines

/-- Parts that are alike are written as texts of one template. -/
theorem bodyAlike_chars (depth : Nat) :
    ∀ {b c : List Code}, List.Forall₂ (Code.Alike r) b c →
      SameTemplate r (bodyChars depth b) (bodyChars depth c)
  | _, _, .nil => .nil
  | _, _, .cons h hrest => by
    rw [bodyChars, bodyChars]
    exact (h.chars depth).append (bodyAlike_chars depth hrest)

end

end SceneWiring
