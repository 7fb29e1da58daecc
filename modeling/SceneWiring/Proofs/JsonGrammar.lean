import Mathlib.Data.List.Forall2
import SceneWiring.Json.Parse
/-!
# The texts of a JSON value

Which texts spell which values, said without the reader: numerals by their digits, quoted texts by
their pieces, arrays and objects by the values in them, with blanks around every bracket, comma and
colon. Main statement: a text that spells a value between blanks is read as that value, to its end.
-/

namespace SceneWiring.Json

/-- Nothing but characters that may stand between the parts of a value. -/
def Blank (text : List Char) : Prop := ∀ c ∈ text, isSpace c = true

/-- Decimal digits in characters. -/
def DigitText (digits : List Nat) (text : List Char) : Prop :=
  List.Forall₂ (fun digit c => digit? c = some digit) digits text

/-- A minus sign, or a plus sign that may be left out. -/
inductive SignText : Bool → List Char → Prop
  | minus : SignText true ['-']
  | plus : SignText false ['+']
  | none : SignText false []

/-- The point and the digits behind it, or neither. -/
inductive FractionText : Option (List Nat) → List Char → Prop
  | none : FractionText none []
  | some {digits : List Nat} {text : List Char} (hdigits : DigitText digits text)
    (hne : digits ≠ []) : FractionText (some digits) ('.' :: text)

/-- The mark of a power of ten, its sign and its digits, or nothing. -/
inductive ExponentText : Option Int → List Char → Prop
  | none : ExponentText none []
  | some {mark : Char} {negative : Bool} {digits : List Nat} {sign text : List Char}
    (hmark : mark = 'e' ∨ mark = 'E') (hsign : SignText negative sign)
    (hdigits : DigitText digits text) (hne : digits ≠ []) :
    ExponentText (some (if negative then -(digitsValue digits : Int) else digitsValue digits))
      (mark :: (sign ++ text))

/-- A numeral behind its minus sign. No zero stands before other digits. -/
inductive NumeralText : Numeral → List Char → Prop
  | mk {negative : Bool} {whole : List Nat} {fraction : Option (List Nat)} {exponent : Option Int}
    {front middle back : List Char} (hwhole : DigitText whole front) (hne : whole ≠ [])
    (hzero : whole.head? = some 0 → whole = [0]) (hfraction : FractionText fraction middle)
    (hexponent : ExponentText exponent back) :
    NumeralText ⟨negative, whole, fraction, exponent⟩ (front ++ (middle ++ back))

/-- Pieces between quotation marks: a character that stands for itself is no quotation mark, no
backslash and no control character. -/
inductive PiecesText : List Piece → List Char → Prop
  | nil : PiecesText [] []
  | plain {c : Char} {pieces : List Piece} {text : List Char} (hquote : c ≠ '"') (hslash : c ≠ '\\')
    (hcode : 0x20 ≤ c.toNat) (hrest : PiecesText pieces text) :
    PiecesText (.char c :: pieces) (c :: text)
  | escape {letter c : Char} {pieces : List Piece} {text : List Char}
    (hletter : simpleEscape? letter = some c) (hrest : PiecesText pieces text) :
    PiecesText (.char c :: pieces) ('\\' :: letter :: text)
  | unit {a b c d : Char} {code : Nat} {pieces : List Piece} {text : List Char}
    (hcode : hexUnit? a b c d = some code) (hrest : PiecesText pieces text) :
    PiecesText (.unit code :: pieces) ('\\' :: 'u' :: a :: b :: c :: d :: text)

/-- The quoted text that consists of pieces and its closing mark. Halves of surrogate pairs that do
not meet their other half leave it without a content. -/
def Quoted.ofPieces (pieces : List Piece) : Quoted :=
  ⟨(assemble none pieces).map String.ofList, none⟩

mutual

/-- A value and its text, without blanks at the ends. -/
inductive Value : Node → List Char → Prop
  | null : Value .null ['n', 'u', 'l', 'l']
  | yes : Value (.bool true) ['t', 'r', 'u', 'e']
  | no : Value (.bool false) ['f', 'a', 'l', 's', 'e']
  | number {n : Numeral} {text : List Char} (hnumeral : NumeralText n text) :
    Value (.number n) (if n.negative then '-' :: text else text)
  | text {pieces : List Piece} {body : List Char} (hpieces : PiecesText pieces body) :
    Value (.text (Quoted.ofPieces pieces)) ('"' :: (body ++ ['"']))
  | emptyArray {blank : List Char} (hblank : Blank blank) :
    Value (.array [] .closed) ('[' :: (blank ++ [']']))
  | array {item : Node} {items : List Node} {blank first more : List Char} (hblank : Blank blank)
    (hfirst : Value item first) (hmore : MoreItems items more) :
    Value (.array (item :: items) .closed) ('[' :: (blank ++ (first ++ more)))
  | emptyObject {blank : List Char} (hblank : Blank blank) :
    Value (.object [] .closed) ('\x7b' :: (blank ++ ['\x7d']))
  | object {fields : List (Quoted × Node)} {blank text : List Char} (hblank : Blank blank)
    (hfields : Fields fields text) : Value (.object fields .closed) ('\x7b' :: (blank ++ text))

/-- What follows an item of an array: the further items, each behind a comma, and the bracket. -/
inductive MoreItems : List Node → List Char → Prop
  | close {blank : List Char} (hblank : Blank blank) : MoreItems [] (blank ++ [']'])
  | comma {item : Node} {items : List Node} {before after next more : List Char}
    (hbefore : Blank before) (hafter : Blank after) (hnext : Value item next)
    (hmore : MoreItems items more) :
    MoreItems (item :: items) (before ++ ',' :: (after ++ (next ++ more)))

/-- The fields of an object from a key on, and the bracket. -/
inductive Fields : List (Quoted × Node) → List Char → Prop
  | mk {pieces : List Piece} {node : Node} {fields : List (Quoted × Node)}
    {body before after value more : List Char} (hkey : PiecesText pieces body)
    (hbefore : Blank before) (hafter : Blank after) (hvalue : Value node value)
    (hmore : MoreFields fields more) :
    Fields ((Quoted.ofPieces pieces, node) :: fields)
      ('"' :: (body ++ '"' :: (before ++ ':' :: (after ++ (value ++ more)))))

/-- What follows a field of an object: the further fields, each behind a comma, and the bracket. -/
inductive MoreFields : List (Quoted × Node) → List Char → Prop
  | close {blank : List Char} (hblank : Blank blank) : MoreFields [] (blank ++ ['\x7d'])
  | comma {fields : List (Quoted × Node)} {before after text : List Char} (hbefore : Blank before)
    (hafter : Blank after) (hfields : Fields fields text) :
    MoreFields fields (before ++ ',' :: (after ++ text))

end

/-- The text spells the value, with blanks before and behind it. -/
def Written (node : Node) (text : String) : Prop :=
  ∃ before value after, Blank before ∧ Value node value ∧ Blank after ∧
    text.toList = before ++ (value ++ after)

/-! ## Blanks -/

/-- Blanks are skipped. -/
theorem skipSpaces_append {blank : List Char} (hblank : Blank blank) (rest : List Char) :
    skipSpaces (blank ++ rest) = skipSpaces rest := by
  induction blank with
  | nil => rfl
  | cons c cs ih =>
    have hc : isSpace c = true := hblank c List.mem_cons_self
    have hcs : Blank cs := fun d hd => hblank d (List.mem_cons_of_mem c hd)
    rw [List.cons_append, skipSpaces, if_pos hc, ih hcs]

/-- A text that starts with something else is kept. -/
theorem skipSpaces_cons {c : Char} (hc : isSpace c = false) (rest : List Char) :
    skipSpaces (c :: rest) = c :: rest := by
  rw [skipSpaces, hc, if_neg Bool.false_ne_true]

/-- Blanks before something else are skipped. -/
theorem skipSpaces_append_cons {blank : List Char} (hblank : Blank blank) {c : Char}
    (hc : isSpace c = false) (rest : List Char) : skipSpaces (blank ++ c :: rest) = c :: rest := by
  rw [skipSpaces_append hblank, skipSpaces_cons hc]

/-- Nothing is left of blanks. -/
theorem skipSpaces_blank {blank : List Char} (hblank : Blank blank) : skipSpaces blank = [] := by
  have h := skipSpaces_append hblank []
  rwa [List.append_nil] at h

/-- A value is looked for behind the blanks. -/
theorem parseValue_blank {blank : List Char} (hblank : Blank blank) (fuel : Nat)
    (rest : List Char) : parseValue fuel (blank ++ rest) = parseValue fuel rest := by
  cases fuel with
  | zero => simp only [parseValue]
  | succ fuel => simp only [parseValue, skipSpaces_append hblank]

/-! ## Numerals -/

/-- A text that does not go on with a digit. -/
def NoDigit (rest : List Char) : Prop := ∀ c ∈ rest.head?, digit? c = none

/-- What may follow a value: nothing, a blank, a comma or a closing bracket. -/
def Follows (rest : List Char) : Prop :=
  ∀ c ∈ rest.head?, isSpace c = true ∨ c = ',' ∨ c = ']' ∨ c = '\x7d'

/-- A character that follows a value is none that a numeral could go on with. -/
theorem follows_head {c : Char} (h : isSpace c = true ∨ c = ',' ∨ c = ']' ∨ c = '\x7d') :
    digit? c = none ∧ c ≠ '.' ∧ ¬(c = 'e' ∨ c = 'E') := by
  simp only [isSpace, Bool.or_eq_true, beq_iff_eq] at h
  rcases h with (((rfl | rfl) | rfl) | rfl) | rfl | rfl | rfl <;> decide

/-- All digits are taken up to the first character that is none. -/
theorem takeDigits_append {digits : List Nat} {text rest : List Char}
    (hdigits : DigitText digits text) (hrest : NoDigit rest) :
    takeDigits (text ++ rest) = (digits, rest) := by
  induction hdigits with
  | nil =>
    cases rest with
    | nil => rfl
    | cons c rest =>
      have hc : digit? c = none := hrest c rfl
      simp only [List.nil_append, takeDigits, hc]
  | cons hd _ ih => simp only [List.cons_append, takeDigits, hd, ih]

/-- The digits before the point are taken. -/
theorem wholePart_append {digits : List Nat} {text rest : List Char}
    (hdigits : DigitText digits text) (hne : digits ≠ [])
    (hzero : digits.head? = some 0 → digits = [0]) (hrest : NoDigit rest) :
    wholePart (text ++ rest) = .ok (digits, rest) := by
  unfold wholePart
  rw [takeDigits_append hdigits hrest]
  split
  · rename_i heq
    exact absurd (Prod.ext_iff.1 heq).1 hne
  · rename_i d ds more heq
    have hdigits : digits = 0 :: d :: ds := (Prod.ext_iff.1 heq).1
    have hone := hzero (by rw [hdigits]; rfl)
    rw [hdigits] at hone
    simp at hone
  · rename_i heq
    rw [heq]

/-- The point and the digits behind it are taken. -/
theorem fractionPart_append {fraction : Option (List Nat)} {text rest : List Char}
    (hfraction : FractionText fraction text) (hrest : NoDigit rest)
    (hpoint : rest.head? ≠ some '.') :
    fractionPart (text ++ rest) = .ok (fraction, rest) := by
  cases hfraction with
  | none =>
    unfold fractionPart
    split
    · simp_all
    · rfl
  | @some digits text hdigits hne =>
    simp only [List.cons_append, fractionPart, takeDigits_append hdigits hrest]

/-- The sign before a text that has none of its own. -/
theorem sign_append {negative : Bool} {text rest : List Char} (hsign : SignText negative text)
    (hrest : ∀ c ∈ rest.head?, c ≠ '-' ∧ c ≠ '+') : sign (text ++ rest) = (negative, rest) := by
  cases hsign with
  | minus => rfl
  | plus => rfl
  | none =>
    rw [List.nil_append]
    unfold sign
    split <;> simp_all

/-- A digit is no character that is none. -/
theorem ne_of_digit {c e : Char} {d : Nat} (hc : digit? c = some d) (he : digit? e = none) :
    c ≠ e := by
  rintro rfl
  rw [hc] at he
  exact absurd he (Option.some_ne_none d)

/-- The power of ten is taken. -/
theorem exponentPart_append {exponent : Option Int} {text rest : List Char}
    (hexponent : ExponentText exponent text) (hrest : NoDigit rest)
    (hmark : ∀ c ∈ rest.head?, ¬(c = 'e' ∨ c = 'E')) :
    exponentPart (text ++ rest) = .ok (exponent, rest) := by
  cases hexponent with
  | none =>
    cases rest with
    | nil => rfl
    | cons c rest => simp only [List.nil_append, exponentPart, if_neg (hmark c rfl)]
  | @some mark negative digits signText digitText hmark hsign hdigits hne =>
    obtain ⟨digit, digits, rfl⟩ := List.exists_cons_of_ne_nil hne
    cases hdigits with
    | @cons _ c _ cs hd hds =>
      have hnosign : ∀ e ∈ (c :: cs ++ rest).head?, e ≠ '-' ∧ e ≠ '+' := by
        intro e he
        obtain rfl : c = e := by simpa using he
        exact ⟨ne_of_digit hd (by decide), ne_of_digit hd (by decide)⟩
      have hsigned := sign_append hsign hnosign
      have htake := takeDigits_append (.cons hd hds) hrest
      rw [List.cons_append, List.append_assoc, exponentPart, if_pos hmark, hsigned]
      simp only [htake]

/-- Behind the digits before the point comes no further digit, and behind the fraction neither a
digit nor a point. -/
theorem exponentText_head {exponent : Option Int} {text rest : List Char}
    (hexponent : ExponentText exponent text) (hrest : Follows rest) :
    NoDigit (text ++ rest) ∧ (text ++ rest).head? ≠ some '.' := by
  cases hexponent with
  | none =>
    refine ⟨fun c hc => (follows_head (hrest c hc)).1, fun hpoint => ?_⟩
    exact (follows_head (hrest '.' hpoint)).2.1 rfl
  | @some mark _ _ _ _ hmark _ _ _ => rcases hmark with rfl | rfl <;> simp [NoDigit] <;> decide

/-- A numeral is read up to its end. -/
theorem parseNumber_append {n : Numeral} {text rest : List Char} (hnumeral : NumeralText n text)
    (hrest : Follows rest) : parseNumber n.negative (text ++ rest) = (.number n, rest) := by
  cases hnumeral with
  | @mk negative whole fraction exponent front middle back hwhole hne hzero hfraction hexponent =>
    have hnodigit : NoDigit rest := fun c hc => (follows_head (hrest c hc)).1
    have hnomark : ∀ c ∈ rest.head?, ¬(c = 'e' ∨ c = 'E') :=
      fun c hc => (follows_head (hrest c hc)).2.2
    obtain ⟨hback, hpoint⟩ := exponentText_head hexponent hrest
    have hmiddle : NoDigit (middle ++ (back ++ rest)) := by
      cases hfraction with
      | none => exact hback
      | some _ _ => simp [NoDigit]; decide
    have hparts : parseNumeral negative (front ++ (middle ++ back) ++ rest) =
        .ok (⟨negative, whole, fraction, exponent⟩, rest) := by
      rw [List.append_assoc, List.append_assoc, parseNumeral,
        wholePart_append hwhole hne hzero hmiddle]
      simp only [bind, Except.bind, fractionPart_append hfraction hback hpoint,
        exponentPart_append hexponent hnodigit hnomark]
      rfl
    rw [parseNumber, hparts]

/-! ## Quoted texts -/

/-- Pieces are read up to the quotation mark behind them. -/
theorem quotedPieces_append {pieces : List Piece} {text : List Char}
    (hpieces : PiecesText pieces text) (rest : List Char) :
    quotedPieces (text ++ '"' :: rest) = ⟨pieces, none, rest⟩ := by
  induction hpieces with
  | nil => simp [quotedPieces]
  | @plain c pieces text hquote hslash hcode _ ih =>
    rw [List.cons_append, quotedPieces, if_neg (Nat.not_lt.2 hcode), ih]
    · rfl
    all_goals simp_all
  | @escape letter c pieces text hletter _ ih =>
    have hu : letter ≠ 'u' := by
      rintro rfl
      simp [simpleEscape?] at hletter
    rw [List.cons_append, List.cons_append, quotedPieces]
    · simp only [hletter, ih]
      rfl
    all_goals simp_all
  | @unit a b c d code pieces text hcode _ ih =>
    simp only [List.cons_append, quotedPieces, hcode, ih]
    rfl

/-- A quoted text is read up to its closing mark. -/
theorem parseQuoted_append {pieces : List Piece} {text : List Char}
    (hpieces : PiecesText pieces text) (rest : List Char) :
    parseQuoted (text ++ '"' :: rest) = (Quoted.ofPieces pieces, rest) := by
  rw [parseQuoted, quotedPieces_append hpieces]
  rfl

/-! ## Values -/

/-- A numeral starts with a digit. -/
theorem numeralText_head {n : Numeral} {text : List Char} (hnumeral : NumeralText n text) :
    ∃ c rest d, text = c :: rest ∧ digit? c = some d := by
  cases hnumeral with
  | @mk _ whole _ _ front middle back hwhole hne _ _ _ =>
    cases hwhole with
    | nil => exact absurd rfl hne
    | @cons d c _ cs hd _ => exact ⟨c, cs ++ (middle ++ back), d, rfl, hd⟩

/-- A digit is no blank. -/
theorem isSpace_of_digit {c : Char} {d : Nat} (hc : digit? c = some d) : isSpace c = false := by
  have hspace : c ≠ ' ' := ne_of_digit hc (by decide)
  have htab : c ≠ '\t' := ne_of_digit hc (by decide)
  have hfeed : c ≠ '\n' := ne_of_digit hc (by decide)
  have hreturn : c ≠ '\r' := ne_of_digit hc (by decide)
  simp [isSpace, hspace, htab, hfeed, hreturn]

/-- A value starts with a character that is neither a blank nor a closing bracket. -/
theorem value_head {node : Node} {text : List Char} (hvalue : Value node text) :
    ∃ c rest, text = c :: rest ∧ isSpace c = false ∧ c ≠ ']' := by
  cases hvalue with
  | @number n text hnumeral =>
    obtain ⟨c, rest, d, rfl, hc⟩ := numeralText_head hnumeral
    by_cases hnegative : n.negative = true
    · rw [if_pos hnegative]
      exact ⟨'-', c :: rest, rfl, by decide, by decide⟩
    · rw [if_neg hnegative]
      exact ⟨c, rest, rfl, isSpace_of_digit hc, ne_of_digit hc (by decide)⟩
  | _ => exact ⟨_, _, rfl, by decide, by decide⟩

/-- A comma or a closing bracket follows a value, with or without blanks before it. -/
theorem follows_append_cons {blank : List Char} (hblank : Blank blank) {mark : Char}
    (hmark : mark = ',' ∨ mark = ']' ∨ mark = '\x7d') (rest : List Char) :
    Follows (blank ++ mark :: rest) := by
  intro c hc
  cases blank with
  | nil =>
    obtain rfl : mark = c := by simpa using hc
    exact .inr hmark
  | cons d blank =>
    obtain rfl : d = c := by simpa using hc
    exact .inl (hblank d List.mem_cons_self)

/-- What follows an item may follow a value. -/
theorem moreItems_follows {items : List Node} {text : List Char} (hmore : MoreItems items text)
    (rest : List Char) : Follows (text ++ rest) := by
  cases hmore with
  | close hblank => simpa using follows_append_cons hblank (.inr (.inl rfl)) rest
  | comma hbefore _ _ _ => simpa using follows_append_cons hbefore (.inl rfl) _

/-- What follows a field may follow a value. -/
theorem moreFields_follows {fields : List (Quoted × Node)} {text : List Char}
    (hmore : MoreFields fields text) (rest : List Char) : Follows (text ++ rest) := by
  cases hmore with
  | close hblank => simpa using follows_append_cons hblank (.inr (.inr rfl)) rest
  | comma hbefore _ _ => simpa using follows_append_cons hbefore (.inl rfl) _

/-- A numeral is read where a value is looked for. -/
theorem parseValue_number {n : Numeral} {text rest : List Char} (hnumeral : NumeralText n text)
    (hrest : Follows rest) (fuel : Nat) :
    parseValue (fuel + 1) ((if n.negative then '-' :: text else text) ++ rest) =
      (.number n, rest) := by
  have hread := parseNumber_append hnumeral hrest
  by_cases hnegative : n.negative = true
  · have hminus : isSpace '-' = false := by decide
    rw [hnegative] at hread
    rw [if_pos hnegative, List.cons_append, parseValue, skipSpaces_cons hminus]
    simpa using hread
  · obtain ⟨c, cs, d, rfl, hc⟩ := numeralText_head hnumeral
    rw [Bool.not_eq_true] at hnegative
    rw [hnegative] at hread
    rw [hnegative, if_neg Bool.false_ne_true, List.cons_append, parseValue,
      skipSpaces_cons (isSpace_of_digit hc)]
    have hnone {e : Char} (he : digit? e = none) : ¬c = e := ne_of_digit hc he
    simp only [hnone (by decide : digit? '"' = none), hnone (by decide : digit? '[' = none),
      hnone (by decide : digit? '\x7b' = none), hnone (by decide : digit? 'n' = none),
      hnone (by decide : digit? 't' = none), hnone (by decide : digit? 'f' = none),
      hnone (by decide : digit? '-' = none), hc, if_false, Option.isSome_some, if_true]
    exact hread

/-- An opening bracket starts an array. -/
theorem parseValue_bracket (fuel : Nat) (rest : List Char) :
    parseValue (fuel + 1) ('[' :: rest) = parseArray fuel rest := by
  simp [parseValue, skipSpaces, isSpace]

/-- An opening brace starts an object. -/
theorem parseValue_brace (fuel : Nat) (rest : List Char) :
    parseValue (fuel + 1) ('\x7b' :: rest) = parseObject fuel rest := by
  simp [parseValue, skipSpaces, isSpace]

/-- Fields start with a quotation mark. -/
theorem fields_head {fields : List (Quoted × Node)} {text : List Char}
    (hfields : Fields fields text) : ∃ body, text = '"' :: body := by
  cases hfields
  exact ⟨_, rfl⟩

mutual

/-- A value is read up to its end, in two steps for each of its characters. -/
theorem parseValue_append {node : Node} {text : List Char} (hvalue : Value node text) (fuel : Nat)
    (hfuel : 2 * text.length ≤ fuel) (rest : List Char) (hrest : Follows rest) :
    parseValue fuel (text ++ rest) = (node, rest) := by
  obtain ⟨c, cs, htext, -, -⟩ := value_head hvalue
  obtain ⟨fuel, rfl⟩ : ∃ more, fuel = more + 2 := by
    refine Nat.exists_eq_add_of_le' ?_
    rw [htext, List.length_cons] at hfuel
    omega
  cases hvalue with
  | null => simp [parseValue, skipSpaces, isSpace, parseWord]
  | yes => simp [parseValue, skipSpaces, isSpace, parseWord]
  | no => simp [parseValue, skipSpaces, isSpace, parseWord]
  | number hnumeral => exact parseValue_number hnumeral hrest _
  | @text pieces body hpieces =>
    have hquoted := parseQuoted_append hpieces rest
    simp [parseValue, skipSpaces, isSpace, hquoted]
  | @emptyArray blank hblank =>
    have hclose : isSpace ']' = false := by decide
    rw [List.cons_append, parseValue_bracket, List.append_assoc, List.singleton_append, parseArray,
      skipSpaces_append_cons hblank hclose]
    rfl
  | @array item items blank first more hblank hfirst hmore =>
    rw [List.length_cons, List.length_append, List.length_append] at hfuel
    have hitem := parseValue_append hfirst fuel (by omega) (more ++ rest)
      (moreItems_follows hmore rest)
    have hitems := parseMoreItems_append hmore fuel (by omega) rest
    obtain ⟨d, ds, rfl, hd, hclose⟩ := value_head hfirst
    rw [List.cons_append, List.append_assoc, List.append_assoc, parseValue_bracket]
    rw [List.cons_append] at hitem ⊢
    rw [parseArray, skipSpaces_append_cons hblank hd]
    simp only [if_neg hclose, hitem, hitems]
  | @emptyObject blank hblank =>
    have hclose : isSpace '\x7d' = false := by decide
    rw [List.cons_append, parseValue_brace, List.append_assoc, List.singleton_append, parseObject,
      skipSpaces_append_cons hblank hclose]
    rfl
  | @object fields blank text hblank hfields =>
    have hquote : isSpace '"' = false := by decide
    obtain ⟨body, rfl⟩ := fields_head hfields
    simp only [List.length_append, List.length_cons] at hfuel
    have hread := parseField_append hfields fuel (by omega) rest
    rw [List.cons_append, List.append_assoc, parseValue_brace, List.cons_append, parseObject,
      skipSpaces_append_cons hblank hquote]
    simp [hread]

/-- The further items of an array are read up to its bracket. -/
theorem parseMoreItems_append {items : List Node} {text : List Char} (hmore : MoreItems items text)
    (fuel : Nat) (hfuel : 2 * text.length ≤ fuel) (rest : List Char) :
    parseMoreItems fuel (text ++ rest) = (items, .closed, rest) := by
  cases hmore with
  | @close blank hblank =>
    have hclose : isSpace ']' = false := by decide
    rw [List.length_append, List.length_singleton] at hfuel
    obtain ⟨fuel, rfl⟩ : ∃ less, fuel = less + 1 := Nat.exists_eq_add_of_le' (by omega)
    rw [List.append_assoc, List.singleton_append, parseMoreItems,
      skipSpaces_append_cons hblank hclose]
    rfl
  | @comma item items before after next more hbefore hafter hnext hmore =>
    have hcomma : isSpace ',' = false := by decide
    simp only [List.length_append, List.length_cons] at hfuel
    obtain ⟨fuel, rfl⟩ : ∃ less, fuel = less + 1 := Nat.exists_eq_add_of_le' (by omega)
    have hitem := parseValue_append hnext fuel (by omega) (more ++ rest)
      (moreItems_follows hmore rest)
    have hitems := parseMoreItems_append hmore fuel (by omega) rest
    obtain ⟨d, ds, rfl, hd, hclose⟩ := value_head hnext
    rw [List.cons_append] at hitem
    simp only [List.append_assoc, List.cons_append, parseMoreItems,
      skipSpaces_append_cons hbefore hcomma, skipSpaces_append_cons hafter hd]
    simp [hclose, hitem, hitems]

/-- The fields of an object are read up to its brace. -/
theorem parseField_append {fields : List (Quoted × Node)} {body : List Char}
    (hfields : Fields fields ('"' :: body)) (fuel : Nat) (hfuel : 2 * body.length ≤ fuel)
    (rest : List Char) : parseField fuel (body ++ rest) = (fields, .closed, rest) := by
  cases hfields with
  | @mk pieces node fields body before after value more hkey hbefore hafter hvalue hmore =>
    have hcolon : isSpace ':' = false := by decide
    simp only [List.length_append, List.length_cons] at hfuel
    obtain ⟨fuel, rfl⟩ : ∃ less, fuel = less + 1 := Nat.exists_eq_add_of_le' (by omega)
    have hquoted := parseQuoted_append hkey (before ++ ':' :: (after ++ (value ++ (more ++ rest))))
    have hnode := parseValue_append hvalue fuel (by omega) (more ++ rest)
      (moreFields_follows hmore rest)
    have hothers := parseMoreFields_append hmore fuel (by omega) rest
    have hplain : (Quoted.ofPieces pieces).skipped = none := rfl
    simp only [List.append_assoc, List.cons_append, parseField, hquoted, hplain,
      skipSpaces_append_cons hbefore hcolon, if_true, parseValue_blank hafter, hnode, hothers]

/-- The further fields of an object are read up to its brace. -/
theorem parseMoreFields_append {fields : List (Quoted × Node)} {text : List Char}
    (hmore : MoreFields fields text) (fuel : Nat) (hfuel : 2 * text.length ≤ fuel)
    (rest : List Char) : parseMoreFields fuel (text ++ rest) = (fields, .closed, rest) := by
  cases hmore with
  | @close blank hblank =>
    have hclose : isSpace '\x7d' = false := by decide
    rw [List.length_append, List.length_singleton] at hfuel
    obtain ⟨fuel, rfl⟩ : ∃ less, fuel = less + 1 := Nat.exists_eq_add_of_le' (by omega)
    rw [List.append_assoc, List.singleton_append, parseMoreFields,
      skipSpaces_append_cons hblank hclose]
    rfl
  | @comma fields before after text hbefore hafter hfields =>
    have hcomma : isSpace ',' = false := by decide
    have hquote : isSpace '"' = false := by decide
    obtain ⟨body, rfl⟩ := fields_head hfields
    simp only [List.length_append, List.length_cons] at hfuel
    obtain ⟨fuel, rfl⟩ : ∃ less, fuel = less + 1 := Nat.exists_eq_add_of_le' (by omega)
    have hread := parseField_append hfields fuel (by omega) rest
    simp only [List.append_assoc, List.cons_append, parseMoreFields,
      skipSpaces_append_cons hbefore hcomma, skipSpaces_append_cons hafter hquote]
    simp [hread]

end

/-- A text that spells a value is read as that value, to its end. -/
theorem Written.parse_eq {node : Node} {text : String} (h : Written node text) :
    parse text = ⟨node, false⟩ := by
  obtain ⟨before, value, after, hbefore, hvalue, hafter, htext⟩ := h
  have hfollows : Follows after := by
    intro c hc
    exact .inl (hafter c (List.mem_of_mem_head? hc))
  have hfuel : 2 * value.length ≤ 2 * text.toList.length + 2 := by
    rw [htext, List.length_append, List.length_append]
    omega
  have hread := parseValue_append hvalue _ hfuel after hfollows
  rw [parse, parseChars, htext, parseValue_blank hbefore, ← htext, hread]
  simp [skipSpaces_blank hafter]

end SceneWiring.Json
