import Mathlib.Data.List.Forall2
import SceneWiring.Code
import SceneWiring.Json.Parse
/-!
# Reading string literals

A regular string literal stands between quotation marks. Inside it a backslash with one of six letters
is an escape, and so is a backslash with the letter u and four hexadecimal digits; every other character
stands for itself. The first quotation mark that belongs to no escape ends the literal. Read in this way
the literal for a text gives the text, and the reader stops right behind it, whatever follows: no text
ends its literal early. Of the characters that end a line of source text a literal holds none but the
line and paragraph separators of its text, which are not escaped.
-/

namespace SceneWiring

namespace Text

/-- The character that a backslash and a letter stand for. -/
def simpleEscape? : Char → Option Char
  | '"' => some '"'
  | '\\' => some '\\'
  | '0' => some '\x00'
  | 'n' => some '\n'
  | 'r' => some '\r'
  | 't' => some '\t'
  | _ => none

/-- The character that four hexadecimal digits stand for. Half of a surrogate pair is none. -/
def unitEscape? (a b c d : Char) : Option Char :=
  (Json.hexUnit? a b c d).bind fun code =>
    if code.isValidChar then some (Char.ofNat code) else none

/-- What has been read, with one more character in front. -/
def pushRead (c : Char) (read : List Char × List Char) : List Char × List Char :=
  (c :: read.1, read.2)

/-- Reads a literal whose opening mark has been taken: the text up to the first quotation mark that
belongs to no escape, and what follows the mark. -/
def readQuoted : List Char → Option (List Char × List Char)
  | [] => none
  | '"' :: rest => some ([], rest)
  | '\\' :: 'u' :: a :: b :: c :: d :: rest =>
    (unitEscape? a b c d).bind fun value => (readQuoted rest).map (pushRead value)
  | '\\' :: letter :: rest =>
    (simpleEscape? letter).bind fun value => (readQuoted rest).map (pushRead value)
  | ['\\'] => none
  | c :: rest => (readQuoted rest).map (pushRead c)

/-- Reads the literal at the front of a text: the text that it stands for, and what follows it. -/
def readLiteral : List Char → Option (List Char × List Char)
  | '"' :: rest => readQuoted rest
  | _ => none

/-- The ways in which a character can be spelled between the quotation marks. -/
inductive Spelled : Char → List Char → Prop
  | itself {c : Char} (mark : c ≠ '"') (backslash : c ≠ '\\') : Spelled c [c]
  | simple {letter c : Char} (h : simpleEscape? letter = some c) : Spelled c ['\\', letter]
  | unit {a b c d value : Char} (h : unitEscape? a b c d = some value) :
    Spelled value ['\\', 'u', a, b, c, d]

/-- The spelling of a character is read as the character. -/
theorem Spelled.readQuoted_append {c : Char} {spelling : List Char} (h : Spelled c spelling)
    (rest : List Char) :
    readQuoted (spelling ++ rest) = (readQuoted rest).map (pushRead c) := by
  cases h with
  | itself mark backslash =>
    rw [List.singleton_append, readQuoted]
    all_goals simp [mark, backslash]
  | @simple letter c h =>
    have hletter : letter ≠ 'u' := by
      rintro rfl
      cases h
    rw [List.cons_append, List.singleton_append, readQuoted, h]
    · rfl
    · simp [hletter]
  | unit h =>
    simp only [List.cons_append, List.nil_append]
    rw [readQuoted, h]
    rfl

/-- Spelled characters up to a quotation mark are read as the text of these characters. -/
theorem readQuoted_of_spelled {text : List Char} {spellings : List (List Char)}
    (h : List.Forall₂ Spelled text spellings) (rest : List Char) :
    readQuoted (spellings.flatten ++ '"' :: rest) = some (text, rest) := by
  induction h with
  | nil => rw [List.flatten_nil, List.nil_append, readQuoted]
  | cons hc _ ih =>
    rw [List.flatten_cons, List.append_assoc, hc.readQuoted_append, ih]
    rfl

/-- What is read with one more character in front is read without it. -/
theorem exists_of_pushRead {c : Char} {read : Option (List Char × List Char)} {text rest : List Char}
    (h : read.map (pushRead c) = some (text, rest)) :
    ∃ more, read = some (more, rest) ∧ text = c :: more := by
  obtain ⟨⟨more, rest'⟩, hread, hpair⟩ := Option.map_eq_some_iff.1 h
  obtain ⟨rfl, rfl⟩ := Prod.mk.inj hpair
  exact ⟨more, hread, rfl⟩

/-- Whatever is read consists of spelled characters up to a quotation mark. -/
theorem spelled_of_readQuoted {written text rest : List Char}
    (h : readQuoted written = some (text, rest)) :
    ∃ spellings, List.Forall₂ Spelled text spellings ∧
      written = spellings.flatten ++ '"' :: rest := by
  fun_induction readQuoted written generalizing text with
  | case1 => cases h
  | case2 =>
    cases h
    exact ⟨[], .nil, rfl⟩
  | case3 a b c d more ih =>
    obtain ⟨value, hvalue, hread⟩ := Option.bind_eq_some_iff.1 h
    obtain ⟨text, hmore, rfl⟩ := exists_of_pushRead hread
    obtain ⟨spellings, hspelled, rfl⟩ := ih hmore
    exact ⟨_ :: spellings, .cons (.unit hvalue) hspelled, rfl⟩
  | case4 letter more hunit ih =>
    obtain ⟨value, hvalue, hread⟩ := Option.bind_eq_some_iff.1 h
    obtain ⟨text, hmore, rfl⟩ := exists_of_pushRead hread
    obtain ⟨spellings, hspelled, rfl⟩ := ih hmore
    exact ⟨_ :: spellings, .cons (.simple hvalue) hspelled, rfl⟩
  | case5 => cases h
  | case6 c more hmark hunit hsimple hlast ih =>
    obtain ⟨text, hmore, rfl⟩ := exists_of_pushRead h
    obtain ⟨spellings, hspelled, rfl⟩ := ih hmore
    -- A backslash is a case of its own, whether nothing stands behind it or something does.
    have hbackslash : c ≠ '\\' := by
      intro hc
      cases hrest : spellings.flatten ++ '"' :: rest with
      | nil => exact hlast hc hrest
      | cons letter more => exact hsimple letter more hc hrest
    exact ⟨_ :: spellings, .cons (.itself hmark hbackslash) hspelled, rfl⟩

/-- The literals for a text are the spellings of its characters between quotation marks. -/
theorem readLiteral_eq_some_iff {written text rest : List Char} :
    readLiteral written = some (text, rest) ↔
      ∃ spellings, List.Forall₂ Spelled text spellings ∧
        written = '"' :: (spellings.flatten ++ '"' :: rest) := by
  constructor
  · intro h
    unfold readLiteral at h
    split at h
    · obtain ⟨spellings, hspelled, rfl⟩ := spelled_of_readQuoted h
      exact ⟨spellings, hspelled, rfl⟩
    · cases h
  · rintro ⟨spellings, hspelled, rfl⟩
    exact readQuoted_of_spelled hspelled rest

/-- A literal is read the same with more text behind it. -/
theorem readLiteral_append {written text rest : List Char}
    (h : readLiteral written = some (text, rest)) (more : List Char) :
    readLiteral (written ++ more) = some (text, rest ++ more) := by
  obtain ⟨spellings, hspelled, rfl⟩ := readLiteral_eq_some_iff.1 h
  refine readLiteral_eq_some_iff.2 ⟨spellings, hspelled, ?_⟩
  rw [List.cons_append, List.append_assoc, List.cons_append]

/-- A hexadecimal digit is read as its value. -/
theorem hexValue?_hexDigit {n : Nat} (h : n < 16) : Json.hexValue? (hexDigit n) = some n :=
  (by decide : ∀ m < 16, Json.hexValue? (hexDigit m) = some m) n h

/-- The escape of a character by its code is read as the character. -/
theorem unitEscape?_fourHexDigits {c : Char} (h : c.toNat < 65536) :
    unitEscape? (hexDigit (c.toNat / 4096 % 16)) (hexDigit (c.toNat / 256 % 16))
      (hexDigit (c.toNat / 16 % 16)) (hexDigit (c.toNat % 16)) = some c := by
  have hdigit (m : Nat) := hexValue?_hexDigit (Nat.mod_lt m (by decide : 0 < 16))
  have hcode : ((c.toNat / 4096 % 16 * 16 + c.toNat / 256 % 16) * 16 + c.toNat / 16 % 16) * 16 +
      c.toNat % 16 = c.toNat := by
    omega
  unfold unitEscape? Json.hexUnit?
  simp only [hdigit, Option.bind_eq_bind, Option.bind_some, Option.pure_def, hcode]
  have hvalid : c.toNat.isValidChar := c.valid
  rw [if_pos hvalid, Char.ofNat_toNat]

/-- What stands for a character in a literal spells the character. -/
theorem spelled_escape (c : Char) : Spelled c (escape c) := by
  unfold escape
  split_ifs with hmark hbackslash hzero hfeed hreturn htab hcontrol
  · subst hmark
    exact .simple rfl
  · subst hbackslash
    exact .simple rfl
  · subst hzero
    exact .simple rfl
  · subst hfeed
    exact .simple rfl
  · subst hreturn
    exact .simple rfl
  · subst htab
    exact .simple rfl
  · have hcode : c.toNat < 65536 := by
      simp only [isControl, Bool.or_eq_true, Bool.and_eq_true, decide_eq_true_eq] at hcontrol
      omega
    exact .unit (unitEscape?_fourHexDigits hcode)
  · exact .itself hmark hbackslash

/-- The literal for a text is read as the text, up to its end. -/
theorem readLiteral_literalChars (text rest : List Char) :
    readLiteral (literalChars text ++ rest) = some (text, rest) := by
  refine readLiteral_eq_some_iff.2 ⟨text.map escape, ?_, ?_⟩
  · exact List.forall₂_map_right_iff.2 (List.forall₂_same.2 fun c _ => spelled_escape c)
  · rw [literalChars, List.flatMap_def, List.cons_append, List.cons_append, List.append_assoc,
      List.singleton_append]

/-- A literal for one text is not the front of a literal for another. -/
theorem eq_literalChars_of_prefix {text rest front value : List Char}
    (hfront : front <+: literalChars text ++ rest) (hread : readLiteral front = some (value, [])) :
    front = literalChars text := by
  obtain ⟨more, hmore⟩ := hfront
  have hboth := readLiteral_append hread more
  rw [hmore, readLiteral_literalChars, List.nil_append] at hboth
  obtain ⟨-, rfl⟩ := Prod.mk.inj (Option.some.inj hboth)
  exact List.append_cancel_right hmore

/-- Different texts have different literals. -/
theorem literal_injective : Function.Injective literal := by
  intro first second hsame
  have hchars : literalChars first.toList = literalChars second.toList := String.ofList_injective hsame
  have hfirst := readLiteral_literalChars first.toList []
  rw [hchars, readLiteral_literalChars] at hfirst
  exact String.toList_inj.1 (Prod.mk.inj (Option.some.inj hfirst)).1.symm

/-- The literal for a text is read as the text, and the reader takes the literal and leaves what
follows. No other literal is the front of such a text, so none ends early, and different texts have
different literals. In a line of code the reader finds the text of each literal at its place and leaves
the code behind it. -/
theorem literals_are_read_back :
    (∀ text rest, readLiteral (literalChars text ++ rest) = some (text, rest)) ∧
    (∀ text rest front value, front <+: literalChars text ++ rest →
      readLiteral front = some (value, []) → front = literalChars text) ∧
    Function.Injective literal ∧
    ∀ (before after : List Piece) (text : String),
      readLiteral ((lineChars (before ++ .literal text :: after)).drop (lineChars before).length) =
        some (text.toList, lineChars after) := by
  refine ⟨readLiteral_literalChars, fun _ _ _ _ => eq_literalChars_of_prefix, literal_injective,
    fun before after text => ?_⟩
  have hline : lineChars (before ++ .literal text :: after) =
      lineChars before ++ (literalChars text.toList ++ lineChars after) := by
    unfold lineChars
    rw [List.flatMap_append, List.flatMap_cons]
    rfl
  rw [hline, List.drop_left]
  exact readLiteral_literalChars text.toList (lineChars after)

/-- A character that separates lines or paragraphs without being a control character. -/
def isSeparator (c : Char) : Bool := c == '\u2028' || c == '\u2029'

/-- A character that ends a line of source text. -/
def isLineTerminator (c : Char) : Bool :=
  c == '\r' || c == '\n' || c == '\u0085' || isSeparator c

/-- No hexadecimal digit ends a line. -/
theorem isLineTerminator_hexDigit (n : Nat) (h : n < 16) : isLineTerminator (hexDigit n) = false :=
  (by decide : ∀ m < 16, isLineTerminator (hexDigit m) = false) n h

/-- What stands for a character in a literal ends a line only if the character is a separator. -/
theorem filter_isLineTerminator_escape (c : Char) :
    (escape c).filter isLineTerminator = [c].filter isSeparator := by
  have hdigit (m : Nat) := isLineTerminator_hexDigit (m % 16) (Nat.mod_lt m (by decide))
  unfold escape
  split_ifs with hmark hbackslash hzero hfeed hreturn htab hcontrol
  · subst hmark
    decide
  · subst hbackslash
    decide
  · subst hzero
    decide
  · subst hfeed
    decide
  · subst hreturn
    decide
  · subst htab
    decide
  · have hcontrol' : isSeparator c = false := by
      refine Bool.eq_false_iff.2 fun hc => ?_
      rcases Bool.or_eq_true_iff.1 hc with hc | hc
      · exact absurd (beq_iff_eq.1 hc ▸ hcontrol) (by decide)
      · exact absurd (beq_iff_eq.1 hc ▸ hcontrol) (by decide)
    have hescape : ∀ e ∈ '\\' :: 'u' :: fourHexDigits c.toNat, ¬isLineTerminator e = true := by
      simp [fourHexDigits, hdigit, (by decide : isLineTerminator '\\' = false),
        (by decide : isLineTerminator 'u' = false)]
    rw [List.filter_eq_nil_iff.2 hescape, List.filter_singleton, hcontrol']
    rfl
  · have hnext : c ≠ '\u0085' := by
      rintro rfl
      exact hcontrol (by decide)
    have hsame : isLineTerminator c = isSeparator c := by
      simp [isLineTerminator, hfeed, hreturn, hnext]
    rw [List.filter_singleton, List.filter_singleton, hsame]

/-- The line terminators of a literal are the separators of its text. -/
theorem filter_isLineTerminator_literalChars (text : List Char) :
    (literalChars text).filter isLineTerminator = text.filter isSeparator := by
  have hbody : (text.flatMap escape).filter isLineTerminator = text.filter isSeparator := by
    induction text with
    | nil => rfl
    | cons c rest ih =>
      rw [List.flatMap_cons, List.filter_append, ih, filter_isLineTerminator_escape,
        ← List.filter_append, List.singleton_append]
  rw [literalChars, List.cons_append, List.filter_cons_of_neg (by decide), List.filter_append, hbody]
  exact List.append_nil _

/-- The characters in the literal for a text that end a line of source text are the line and paragraph
separators of the text, in their order. So a literal ends no line exactly when its text has neither of
the two. -/
theorem line_terminators_of_literal (text : String) :
    (literal text).toList.filter isLineTerminator = text.toList.filter isSeparator ∧
    ((∀ c ∈ (literal text).toList, isLineTerminator c = false) ↔
      ∀ c ∈ text.toList, c ≠ '\u2028' ∧ c ≠ '\u2029') := by
  have hfilter : (literal text).toList.filter isLineTerminator = text.toList.filter isSeparator := by
    rw [literal, String.toList_ofList, filter_isLineTerminator_literalChars]
  refine ⟨hfilter, ?_⟩
  calc (∀ c ∈ (literal text).toList, isLineTerminator c = false)
      ↔ (literal text).toList.filter isLineTerminator = [] := by
        simp only [List.filter_eq_nil_iff, Bool.not_eq_true]
    _ ↔ text.toList.filter isSeparator = [] := by rw [hfilter]
    _ ↔ ∀ c ∈ text.toList, c ≠ '\u2028' ∧ c ≠ '\u2029' := by
        simp [List.filter_eq_nil_iff, isSeparator]

/-- The literal for a line separator has the separator in it, which ends a line of source text. -/
theorem separator_stays_in_literal :
    '\u2028' ∈ (literal "\u2028").toList ∧ isLineTerminator '\u2028' = true := by
  decide

end Text

end SceneWiring
