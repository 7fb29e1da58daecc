import SceneWiring.Compilation
/-!
# Spellings of a type name

One type can be written in several ways: with blanks around it, with a question mark behind it, with
the mark of the root of all namespaces in front of it. What is between these is the core of the
text. Whichever text spells a core, the name that is read off it is the core, with the root mark or
without, so that all spellings of a core denote the same declaration.
-/

namespace SceneWiring

namespace Text

/-- There are only blanks in the text. -/
def Blank (text : List Char) : Prop := ∀ c ∈ text, isBlank c = true

-- The instances are named: there may be others in scope, which try all characters.
instance (text : List Char) : Decidable (Blank text) :=
  List.decidableBAll (isBlank · = true) text

/-- The text neither starts nor ends with a blank. -/
structure Trimmed (text : List Char) : Prop where
  /-- The first character is no blank. -/
  front : ∀ c ∈ text.head?, isBlank c = false
  /-- The last character is no blank. -/
  back : ∀ c ∈ text.getLast?, isBlank c = false

instance (text : List Char) : Decidable (Trimmed text) :=
  have : Decidable (∀ c ∈ text.head?, isBlank c = false) := Option.decidableForallMem _
  have : Decidable (∀ c ∈ text.getLast?, isBlank c = false) := Option.decidableForallMem _
  decidable_of_iff ((∀ c ∈ text.head?, isBlank c = false) ∧ ∀ c ∈ text.getLast?, isBlank c = false)
    ⟨fun h => ⟨h.1, h.2⟩, fun h => ⟨h.front, h.back⟩⟩

variable {front core back : List Char}

/-- A text that does not start with a blank keeps its front. -/
theorem dropBlanks_eq_self {text : List Char} (h : ∀ c ∈ text.head?, isBlank c = false) :
    dropBlanks text = text := by
  cases text with
  | nil => rfl
  | cons c rest =>
    have hc := h c rfl
    rw [dropBlanks, List.dropWhile_cons_of_neg]
    rw [hc]
    exact Bool.false_ne_true

/-- A text that does not end with a blank keeps its end. -/
theorem dropBlanksRight_eq_self {text : List Char} (h : ∀ c ∈ text.getLast?, isBlank c = false) :
    dropBlanksRight text = text := by
  rw [← List.head?_reverse] at h
  have hreverse := dropBlanks_eq_self h
  rw [dropBlanks] at hreverse
  rw [dropBlanksRight_eq_reverse, hreverse, List.reverse_reverse]

/-- Blanks in front of a text are dropped with its own. -/
theorem dropBlanks_append (hfront : Blank front) (text : List Char) :
    dropBlanks (front ++ text) = dropBlanks text :=
  List.dropWhile_append_of_pos hfront

/-- Blanks behind a text are dropped with its own. -/
theorem dropBlanksRight_append (hback : Blank back) (text : List Char) :
    dropBlanksRight (text ++ back) = dropBlanksRight text := by
  have hreverse : ∀ c ∈ back.reverse, isBlank c = true :=
    fun c hc => hback c (List.mem_reverse.1 hc)
  rw [dropBlanksRight_eq_reverse, List.reverse_append, List.dropWhile_append_of_pos hreverse,
    ← dropBlanksRight_eq_reverse]

/-- A text is what is left of it without the blanks behind it, and these blanks. -/
theorem exists_blanks (text : List Char) :
    ∃ blanks, Blank blanks ∧ text = dropBlanksRight text ++ blanks := by
  refine ⟨(text.reverse.takeWhile isBlank).reverse, fun c hc => ?_, ?_⟩
  · exact List.all_eq_true.1 List.all_takeWhile c (List.mem_reverse.1 hc)
  · rw [dropBlanksRight_eq_reverse, ← List.reverse_append, List.takeWhile_append_dropWhile,
      List.reverse_reverse]

/-- Trimming takes the blanks off a text that has none at its ends. -/
theorem trimChars_append (hfront : Blank front) (hcore : Trimmed core) (hback : Blank back) :
    trimChars (front ++ (core ++ back)) = core := by
  rw [trimChars, dropBlanks_append hfront]
  cases core with
  | nil =>
    have hnone := dropBlanks_append hback []
    rw [List.append_nil] at hnone
    rw [List.nil_append, hnone]
    rfl
  | cons c rest =>
    have hfirst : ∀ d ∈ (c :: rest ++ back).head?, isBlank d = false := hcore.front
    rw [dropBlanks_eq_self hfirst, dropBlanksRight_append hback,
      dropBlanksRight_eq_self hcore.back]

/-- A character that is no blank ends what is left of a text with only blanks behind it. -/
theorem trimChars_append_cons (text : List Char) {mark : Char} (hmark : isBlank mark = false)
    (hback : Blank back) : trimChars (text ++ mark :: back) = dropBlanks text ++ [mark] := by
  have hkeep : dropBlanks (text ++ mark :: back) = dropBlanks text ++ [mark] ++ back := by
    rw [dropBlanks, List.dropWhile_append, List.dropWhile_cons_of_neg (by simp [hmark])]
    split
    · rename_i hempty
      rw [dropBlanks, List.isEmpty_iff.1 hempty]
      rfl
    · rw [List.append_assoc]
      rfl
  rw [trimChars, hkeep, dropBlanksRight_append hback, dropBlanksRight_eq_self]
  intro c hc
  rw [List.getLast?_concat, Option.mem_some] at hc
  rw [← hc, hmark]

end Text

/-- The text is the core of a written type: no blanks at its ends, no question mark behind, no root
mark in front. -/
structure IsCore (core : List Char) : Prop where
  /-- It neither starts nor ends with a blank. -/
  trimmed : Text.Trimmed core
  /-- It does not end with a question mark. -/
  unmarked : core.getLast? ≠ some '?'
  /-- It does not start with a root mark. -/
  rootless : ¬rootMark <+: core

instance (core : List Char) : Decidable (IsCore core) :=
  decidable_of_iff (Text.Trimmed core ∧ core.getLast? ≠ some '?' ∧ ¬rootMark <+: core)
    ⟨fun h => ⟨h.1, h.2.1, h.2.2⟩, fun h => ⟨h.trimmed, h.unmarked, h.rootless⟩⟩

/-- The texts that spell a core: blanks, a root mark or none, the core, blanks, a question mark or
none, blanks. -/
inductive Spells (core : List Char) : List Char → Prop
  | intro (front mark gap question back : List Char) (hfront : Text.Blank front)
      (hmark : mark = [] ∨ mark = rootMark) (hgap : Text.Blank gap)
      (hquestion : question = [] ∨ question = ['?']) (hback : Text.Blank back) :
      Spells core (front ++ (mark ++ core) ++ gap ++ question ++ back)

/-- A core spells itself. -/
theorem Spells.self (core : List Char) : Spells core core := by
  have hnone : Text.Blank [] := fun _ hc => absurd hc List.not_mem_nil
  have h : Spells core _ := .intro [] [] [] [] [] hnone (.inl rfl) hnone (.inl rfl) hnone
  simpa only [List.nil_append, List.append_nil] using h

namespace IsCore

variable {core mark : List Char}

/-- A core with or without the root mark does not start or end with a blank. -/
theorem trimmed_append (hcore : IsCore core) (hmark : mark = [] ∨ mark = rootMark) :
    Text.Trimmed (mark ++ core) := by
  rcases hmark with rfl | rfl
  · exact hcore.trimmed
  · refine ⟨by simp [rootMark, Text.isBlank], ?_⟩
    have hlast : (rootMark ++ core).getLast? = core.getLast?.or (some ':') := List.getLast?_append
    rw [hlast]
    cases hend : core.getLast? with
    | none => simp [Text.isBlank]
    | some c =>
      have hc := hcore.trimmed.back c hend
      simpa using hc

/-- A core with or without the root mark does not end with a question mark. -/
theorem unmarked_append (hcore : IsCore core) (hmark : mark = [] ∨ mark = rootMark) :
    (mark ++ core).getLast? ≠ some '?' := by
  have hend := hcore.unmarked
  rcases hmark with rfl | rfl
  · exact hend
  · rw [List.getLast?_append]
    cases hlast : core.getLast? with
    | none => simp [rootMark]
    | some c =>
      rw [hlast] at hend
      exact hend

/-- Without its root mark a core is left, and a core without one is kept. -/
theorem dropRootMark_append (hcore : IsCore core) (hmark : mark = [] ∨ mark = rootMark) :
    dropRootMark (mark ++ core) = core := by
  rcases hmark with rfl | rfl
  · exact dropRootMark_eq_self_iff.2 hcore.rootless
  · exact dropRootMark_rootMark_append core

end IsCore

namespace TypeRef

/-- The name read off a text that spells a core is the core, with the root mark or without. -/
theorem dropRootMark_ofText {core : List Char} {text : String} (hcore : IsCore core)
    (h : Spells core text.toList) : dropRootMark (ofText text).name.toList = core := by
  generalize htext : text.toList = chars at h
  obtain ⟨front, mark, gap, question, back, hfront, hmark, hgap, hquestion, hback⟩ := h
  have htrimmed := hcore.trimmed_append hmark
  have hname : (ofText text).name.toList = mark ++ core := by
    unfold ofText
    rw [htext]
    rcases hquestion with rfl | rfl
    · have hblank : Text.Blank (gap ++ back) := by
        intro c hc
        rcases List.mem_append.1 hc with hc | hc
        · exact hgap c hc
        · exact hback c hc
      have htrim := Text.trimChars_append hfront htrimmed hblank
      have hparts : front ++ (mark ++ core) ++ gap ++ [] ++ back =
          front ++ (mark ++ core ++ (gap ++ back)) := by
        simp only [List.append_assoc, List.nil_append]
      rw [hparts, htrim]
      dsimp only
      rw [if_neg (hcore.unmarked_append hmark), String.toList_ofList]
    · have htrim := Text.trimChars_append hfront htrimmed hgap
      have hsolid : Text.isBlank '?' = false := by decide
      have hlast := Text.trimChars_append_cons (front ++ (mark ++ core ++ gap)) hsolid hback
      have hparts : front ++ (mark ++ core) ++ gap ++ ['?'] ++ back =
          front ++ (mark ++ core ++ gap) ++ '?' :: back := by
        simp only [List.append_assoc, List.cons_append, List.nil_append]
      rw [Text.trimChars] at htrim
      rw [hparts, hlast]
      dsimp only
      rw [if_pos List.getLast?_concat, List.dropLast_concat, htrim, String.toList_ofList]
  rw [hname, hcore.dropRootMark_append hmark]

/-- The types are read off two spellings of one core. -/
def SameCore (type type' : TypeRef) : Prop :=
  ∃ (core : List Char) (text text' : String), IsCore core ∧ Spells core text.toList ∧
    Spells core text'.toList ∧ type = ofText text ∧ type' = ofText text'

/-- A type that is written as its core alone has the core of every text that spells it. -/
theorem sameCore_of_spells {type : TypeRef} {text : String} (hcore : IsCore type.name.toList)
    (htype : type = ofText type.name) (h : Spells type.name.toList text.toList) :
    type.SameCore (ofText text) :=
  ⟨type.name.toList, type.name, text, hcore, .self _, h, htype, rfl⟩

/-- Types of one core have the same name but for the root mark. -/
theorem SameCore.dropRootMark_eq {type type' : TypeRef} (h : type.SameCore type') :
    dropRootMark type.name.toList = dropRootMark type'.name.toList := by
  obtain ⟨core, text, text', hcore, hspells, hspells', rfl, rfl⟩ := h
  rw [dropRootMark_ofText hcore hspells, dropRootMark_ofText hcore hspells']

end TypeRef

/-- The root mark is no part of the type arguments. -/
theorem argumentsOf_dropRootMark (name : List Char) :
    argumentsOf (dropRootMark name) = argumentsOf name := by
  rcases dropRootMark_cases name with ⟨-, heq⟩ | ⟨-, heq⟩
  · rw [heq]
  · rw [heq, dropRootMark_rootMark_append]
    rfl

section SameName

variable {type type' : TypeRef}

/-- The root mark is no part of the name of the definition. -/
theorem TypeRef.definitionName_congr
    (h : dropRootMark type.name.toList = dropRootMark type'.name.toList) :
    type.definitionName = type'.definitionName := by
  unfold TypeRef.definitionName SceneWiring.definitionName definitionChars
  rw [h]

namespace Compilation

/-- The root mark does not count for what a type denotes. -/
theorem resolve_congr (c : Compilation)
    (h : dropRootMark type.name.toList = dropRootMark type'.name.toList) :
    c.resolve type = c.resolve type' := by
  unfold resolve lookup
  rw [h]

/-- The root mark does not count for how generated code writes a declared type. -/
theorem display_congr {c : Compilation} {d : TypeDecl} (hd : c.resolve type = some d)
    (h : dropRootMark type.name.toList = dropRootMark type'.name.toList) :
    c.display type = c.display type' := by
  have hd' := (c.resolve_congr h).symm.trans hd
  have harguments : argumentsOf type.name.toList = argumentsOf type'.name.toList := by
    rw [← argumentsOf_dropRootMark, h, argumentsOf_dropRootMark]
  unfold display
  rw [hd, hd', harguments]

end Compilation

end SameName

end SceneWiring
