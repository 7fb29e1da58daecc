import SceneWiring.Json.Decode
import SceneWiring.Proofs.JsonGrammar
/-!
# What a reading tells about the text

The tree of a text without a faulty place spells the text: wherever the reader has met no fault, the
characters that it has taken are a text of the value that it gives. Main statements: a text is read
as a whole value with nothing behind it exactly when it spells that value; and what spells a value
can be skipped.
-/

namespace SceneWiring.Json

/-- The text has a content, or can at least be skipped. -/
def Quoted.Whole (q : Quoted) : Prop := q.skipped = none ∨ ∃ content, q.content = .ok content

/-- A value without a place where the text stops being JSON. -/
inductive Node.Whole : Node → Prop
  | null : Node.Whole .null
  | bool (value : Bool) : Node.Whole (.bool value)
  | number (n : Numeral) : Node.Whole (.number n)
  | text {q : Quoted} (hquoted : q.Whole) : Node.Whole (.text q)
  | array {items : List Node} (hitems : ∀ item ∈ items, Node.Whole item) :
    Node.Whole (.array items .closed)
  | object {fields : List (Quoted × Node)} (hkeys : ∀ field ∈ fields, field.1.Whole)
    (hvalues : ∀ field ∈ fields, Node.Whole field.2) : Node.Whole (.object fields .closed)

/-! ## Blanks and numerals -/

/-- Only blanks are skipped. -/
theorem exists_blank (text : List Char) :
    ∃ blank, Blank blank ∧ text = blank ++ skipSpaces text := by
  induction text with
  | nil => exact ⟨[], fun c hc => absurd hc List.not_mem_nil, rfl⟩
  | cons c rest ih =>
    obtain ⟨blank, hblank, hrest⟩ := ih
    by_cases hc : isSpace c = true
    · refine ⟨c :: blank, ?_, ?_⟩
      · intro d hd
        rcases List.mem_cons.1 hd with rfl | hd
        · exact hc
        · exact hblank d hd
      · rw [skipSpaces, if_pos hc, List.cons_append, ← hrest]
    · refine ⟨[], fun d hd => absurd hd List.not_mem_nil, ?_⟩
      rw [skipSpaces, if_neg hc, List.nil_append]

/-- Blanks in a row are blanks. -/
theorem Blank.append {front back : List Char} (hfront : Blank front) (hback : Blank back) :
    Blank (front ++ back) := by
  intro c hc
  rcases List.mem_append.1 hc with hc | hc
  · exact hfront c hc
  · exact hback c hc

/-- The digits taken are spelled by the characters taken. -/
theorem digitText_takeDigits (text : List Char) :
    ∃ front, DigitText (takeDigits text).1 front ∧ text = front ++ (takeDigits text).2 := by
  induction text with
  | nil => exact ⟨[], .nil, rfl⟩
  | cons c rest ih =>
    obtain ⟨front, hfront, hrest⟩ := ih
    cases hc : digit? c with
    | none => exact ⟨[], by simp only [takeDigits, hc]; exact .nil, by simp only [takeDigits, hc]; rfl⟩
    | some d =>
      refine ⟨c :: front, ?_, ?_⟩
      · simp only [takeDigits, hc]
        exact .cons hc hfront
      · simp only [takeDigits, hc, List.cons_append]
        rw [← hrest]

/-- The digits before the point are spelled as they must be. -/
theorem digitText_of_wholePart {text rest : List Char} {digits : List Nat}
    (h : wholePart text = .ok (digits, rest)) :
    ∃ front, DigitText digits front ∧ digits ≠ [] ∧ (digits.head? = some 0 → digits = [0]) ∧
      text = front ++ rest := by
  obtain ⟨front, hfront, htext⟩ := digitText_takeDigits text
  unfold wholePart at h
  split at h
  · contradiction
  · contradiction
  · rename_i taken more hne hzero heq
    rw [heq] at hfront htext
    obtain ⟨rfl, rfl⟩ : taken = digits ∧ more = rest := by simpa using h
    refine ⟨front, hfront, hne, ?_, htext⟩
    intro hhead
    match taken, hzero, hhead with
    | [d], _, hhead => simpa using hhead
    | d :: e :: ds, hzero, hhead =>
      obtain rfl : d = 0 := by simpa using hhead
      exact absurd rfl (hzero e ds)

/-- The point and the digits behind it are spelled as they must be. -/
theorem fractionText_of_fractionPart {text rest : List Char} {fraction : Option (List Nat)}
    (h : fractionPart text = .ok (fraction, rest)) :
    ∃ front, FractionText fraction front ∧ text = front ++ rest := by
  unfold fractionPart at h
  split at h
  · rename_i behind
    obtain ⟨front, hfront, htext⟩ := digitText_takeDigits behind
    split at h
    · contradiction
    · rename_i taken more hne heq
      rw [heq] at hfront htext
      obtain ⟨rfl, rfl⟩ : some taken = fraction ∧ more = rest := by simpa using h
      exact ⟨'.' :: front, .some hfront hne, by rw [htext]; rfl⟩
  · obtain ⟨rfl, rfl⟩ : none = fraction ∧ text = rest := by simpa using h
    exact ⟨[], .none, rfl⟩

/-- The sign is spelled by the character taken. -/
theorem signText_sign (text : List Char) :
    ∃ front, SignText (sign text).1 front ∧ text = front ++ (sign text).2 := by
  unfold sign
  split
  · exact ⟨['-'], .minus, rfl⟩
  · exact ⟨['+'], .plus, rfl⟩
  · exact ⟨[], .none, rfl⟩

/-- The power of ten is spelled as it must be. -/
theorem exponentText_of_exponentPart {text rest : List Char} {exponent : Option Int}
    (h : exponentPart text = .ok (exponent, rest)) :
    ∃ front, ExponentText exponent front ∧ text = front ++ rest := by
  cases text with
  | nil =>
    obtain ⟨rfl, rfl⟩ : none = exponent ∧ [] = rest := by simpa [exponentPart] using h
    exact ⟨[], .none, rfl⟩
  | cons c behind =>
    by_cases hc : c = 'e' ∨ c = 'E'
    · obtain ⟨signed, hsigned, hbehind⟩ := signText_sign behind
      obtain ⟨front, hfront, htext⟩ := digitText_takeDigits (sign behind).2
      simp only [exponentPart, if_pos hc] at h
      split at h
      · contradiction
      · rename_i taken more hne heq
        rw [heq] at hfront htext
        obtain ⟨rfl, rfl⟩ : some (if (sign behind).1 then -(digitsValue taken : Int) else
            digitsValue taken) = exponent ∧ more = rest := by simpa using h
        refine ⟨c :: (signed ++ front), .some hc hsigned hfront hne, ?_⟩
        rw [List.cons_append, List.append_assoc, ← htext, ← hbehind]
    · simp only [exponentPart, if_neg hc] at h
      obtain ⟨rfl, rfl⟩ : none = exponent ∧ c :: behind = rest := by simpa using h
      exact ⟨[], .none, rfl⟩

/-- A numeral is spelled by the characters taken. -/
theorem numeralText_of_parseNumeral {negative : Bool} {text rest : List Char} {n : Numeral}
    (h : parseNumeral negative text = .ok (n, rest)) :
    n.negative = negative ∧ ∃ front, NumeralText n front ∧ text = front ++ rest := by
  unfold parseNumeral at h
  cases hwhole : wholePart text with
  | error fault => simp [hwhole, bind, Except.bind] at h
  | ok whole =>
    cases hfraction : fractionPart whole.2 with
    | error fault => simp [hwhole, hfraction, bind, Except.bind] at h
    | ok fraction =>
      cases hexponent : exponentPart fraction.2 with
      | error fault => simp [hwhole, hfraction, hexponent, bind, Except.bind] at h
      | ok exponent =>
        obtain ⟨rfl, rfl⟩ : ⟨negative, whole.1, fraction.1, exponent.1⟩ = n ∧ exponent.2 = rest := by
          simpa [hwhole, hfraction, hexponent, bind, Except.bind, pure, Except.pure] using h
        obtain ⟨front, hfront, hne, hzero, htext⟩ := digitText_of_wholePart hwhole
        obtain ⟨middle, hmiddle, hmore⟩ := fractionText_of_fractionPart hfraction
        obtain ⟨back, hback, hlast⟩ := exponentText_of_exponentPart hexponent
        refine ⟨rfl, front ++ (middle ++ back), .mk hfront hne hzero hmiddle hback, ?_⟩
        rw [htext, hmore, hlast, List.append_assoc, List.append_assoc]

/-- A number without fault is a numeral spelled by the characters taken. -/
theorem numeralText_of_parseNumber {negative : Bool} {text rest : List Char} {node : Node}
    (h : parseNumber negative text = (node, rest)) (hwhole : node.Whole) :
    ∃ n front, node = .number n ∧ n.negative = negative ∧ NumeralText n front ∧
      text = front ++ rest := by
  unfold parseNumber at h
  split at h
  · rename_i n more hn
    obtain ⟨rfl, rfl⟩ : .number n = node ∧ more = rest := by simpa using h
    obtain ⟨hnegative, front, hfront, htext⟩ := numeralText_of_parseNumeral hn
    exact ⟨n, front, rfl, hnegative, hfront, htext⟩
  · obtain ⟨rfl, rfl⟩ : .broken _ .malformed = node ∧ [] = rest := by simpa using h
    cases hwhole

/-! ## Words and quoted texts -/

/-- A word without fault is spelled in full. -/
theorem eq_of_parseWord {value : Node} {word text : List Char}
    (hwhole : (parseWord value word text).1.Whole) :
    (parseWord value word text).1 = value ∧ text = word ++ (parseWord value word text).2 := by
  induction word generalizing text with
  | nil => exact ⟨by rw [parseWord], by rw [parseWord, List.nil_append]⟩
  | cons letter word ih =>
    cases text with
    | nil => cases hwhole
    | cons c text =>
      rw [parseWord] at hwhole ⊢
      split_ifs at hwhole ⊢ with hc
      · obtain ⟨hnode, htext⟩ := ih hwhole
        exact ⟨hnode, by rw [hc, List.cons_append, ← htext]⟩
      · cases hwhole

/-- The first letter of a word and the letters taken behind it spell the value of the word. -/
theorem value_of_parseWord {value : Node} {c : Char} {word text : List Char}
    (hword : Value value (c :: word)) (hwhole : (parseWord value word text).1.Whole) :
    ∃ body, Value (parseWord value word text).1 body ∧
      c :: text = body ++ (parseWord value word text).2 := by
  obtain ⟨hnode, htext⟩ := eq_of_parseWord hwhole
  rw [hnode]
  exact ⟨c :: word, hword, congrArg (c :: ·) htext⟩

/-- Pieces that a closing mark ends are spelled by the characters before it. -/
theorem piecesText_quotedPieces {text : List Char} (h : (quotedPieces text).fault = none) :
    ∃ body, PiecesText (quotedPieces text).pieces body ∧
      text = body ++ '"' :: (quotedPieces text).rest := by
  fun_induction quotedPieces text with
  | case2 rest => exact ⟨[], .nil, rfl⟩
  | case3 a b c d rest code hcode ih =>
    obtain ⟨body, hbody, hrest⟩ := ih h
    refine ⟨'\\' :: 'u' :: a :: b :: c :: d :: body, .unit hcode hbody, ?_⟩
    simpa [Pieces.push] using hrest
  | case6 letter rest _ _ c hletter ih =>
    obtain ⟨body, hbody, hrest⟩ := ih h
    refine ⟨'\\' :: letter :: body, .escape hletter hbody, ?_⟩
    simpa [Pieces.push] using hrest
  | case10 c rest hquote _ _ hmore hlast hcode ih =>
    obtain ⟨body, hbody, hrest⟩ := ih h
    have hslash : c ≠ '\\' := by
      intro hc
      cases rest with
      | nil => exact hlast hc rfl
      | cons d rest => exact hmore d rest hc rfl
    refine ⟨c :: body, .plain hquote hslash (Nat.not_lt.1 hcode) hbody, ?_⟩
    simpa [Pieces.push] using hrest
  | _ => exact absurd h (Option.some_ne_none _)

/-- Pieces that no closing mark ends stand for nothing. -/
theorem assemble_fault (fault : Fault) (pieces : List Piece) :
    ∃ met, assemble (some fault) pieces = .error met := by
  fun_induction assemble (some fault) pieces with
  | case1 hnone => exact absurd hnone (Option.some_ne_none fault)
  | case6 _ _ _ hnone => exact absurd hnone (Option.some_ne_none fault)
  | case3 _ _ ih | case8 _ _ _ _ _ ih | case11 _ _ _ _ _ ih | case13 _ _ _ _ ih =>
    obtain ⟨met, hmet⟩ := ih
    exact ⟨met, by rw [hmet]; rfl⟩
  | _ => exact ⟨_, rfl⟩

/-- A quoted text without fault is spelled by the characters taken. -/
theorem piecesText_of_parseQuoted {text : List Char} (hwhole : (parseQuoted text).1.Whole) :
    ∃ pieces body, (parseQuoted text).1 = Quoted.ofPieces pieces ∧ PiecesText pieces body ∧
      text = body ++ '"' :: (parseQuoted text).2 := by
  have hfault : (quotedPieces text).fault = none := by
    rcases hwhole with hskipped | ⟨content, hcontent⟩
    · exact hskipped
    · cases hmet : (quotedPieces text).fault with
      | none => rfl
      | some fault =>
        obtain ⟨met, hassemble⟩ := assemble_fault fault (quotedPieces text).pieces
        simp only [parseQuoted, hmet, hassemble] at hcontent
        contradiction
  obtain ⟨body, hbody, htext⟩ := piecesText_quotedPieces hfault
  refine ⟨(quotedPieces text).pieces, body, ?_, hbody, htext⟩
  simp only [parseQuoted, Quoted.ofPieces, hfault]

/-! ## Values -/

mutual

/-- A value without fault is spelled by the characters taken, behind some blanks. -/
theorem value_of_parseValue (fuel : Nat) {text : List Char}
    (hwhole : (parseValue fuel text).1.Whole) :
    ∃ blank value, Blank blank ∧ Value (parseValue fuel text).1 value ∧
      text = blank ++ (value ++ (parseValue fuel text).2) := by
  obtain ⟨blank, hblank, htext⟩ := exists_blank text
  suffices ∃ value, Value (parseValue fuel text).1 value ∧
      skipSpaces text = value ++ (parseValue fuel text).2 by
    obtain ⟨value, hvalue, hskip⟩ := this
    exact ⟨blank, value, hblank, hvalue, by rw [← hskip, ← htext]⟩
  cases fuel with
  | zero => cases hwhole
  | succ fuel =>
    rw [parseValue] at hwhole ⊢
    cases hskip : skipSpaces text with
    | nil =>
      rw [hskip] at hwhole
      cases hwhole
    | cons c more =>
      simp only [hskip] at hwhole ⊢
      split_ifs at hwhole ⊢ with hquote hbracket hbrace hn ht hf hminus hdigit
      · cases hwhole with
        | text hquoted =>
          obtain ⟨pieces, body, hq, hbody, hmore⟩ := piecesText_of_parseQuoted hquoted
          refine ⟨'"' :: (body ++ ['"']), ?_, ?_⟩
          · rw [hq]
            exact .text hbody
          · rw [hquote, List.cons_append, List.append_assoc]
            exact congrArg _ hmore
      · obtain ⟨body, hbody, hmore⟩ := value_of_parseArray fuel hwhole
        exact ⟨_, hbody, by rw [hbracket]; exact congrArg _ hmore⟩
      · obtain ⟨body, hbody, hmore⟩ := value_of_parseObject fuel hwhole
        exact ⟨_, hbody, by rw [hbrace]; exact congrArg _ hmore⟩
      · exact value_of_parseWord (hn ▸ .null) hwhole
      · exact value_of_parseWord (ht ▸ .yes) hwhole
      · exact value_of_parseWord (hf ▸ .no) hwhole
      · obtain ⟨n, front, hnode, hnegative, hfront, hmore⟩ :=
          numeralText_of_parseNumber rfl hwhole
        have hvalue := Value.number hfront
        rw [hnegative, if_pos rfl] at hvalue
        exact ⟨_, hnode ▸ hvalue, by rw [hminus]; exact congrArg _ hmore⟩
      · obtain ⟨n, front, hnode, hnegative, hfront, hmore⟩ :=
          numeralText_of_parseNumber rfl hwhole
        have hvalue := Value.number hfront
        rw [hnegative, if_neg Bool.false_ne_true] at hvalue
        exact ⟨_, hnode ▸ hvalue, hmore⟩
      · cases hwhole

/-- An array without fault is spelled by its bracket and the characters taken. -/
theorem value_of_parseArray (fuel : Nat) {text : List Char}
    (hwhole : (parseArray fuel text).1.Whole) :
    ∃ body, Value (parseArray fuel text).1 ('[' :: body) ∧
      text = body ++ (parseArray fuel text).2 := by
  obtain ⟨blank, hblank, htext⟩ := exists_blank text
  cases fuel with
  | zero => cases hwhole
  | succ fuel =>
    rw [parseArray] at hwhole ⊢
    cases hskip : skipSpaces text with
    | nil =>
      rw [hskip] at hwhole
      cases hwhole
    | cons c more =>
      rw [hskip] at htext
      simp only [hskip] at hwhole ⊢
      split_ifs at hwhole ⊢ with hclose
      · exact ⟨blank ++ [']'], .emptyArray hblank, by rw [htext, hclose]; simp⟩
      · dsimp only at hwhole ⊢
        generalize hending : (parseMoreItems fuel (parseValue fuel (c :: more)).2).2.1 = ending
          at hwhole ⊢
        cases hwhole with
        | array hall =>
          obtain ⟨inner, value, hinner, hvalue, hmore⟩ :=
            value_of_parseValue fuel (hall _ List.mem_cons_self)
          obtain ⟨body, hbody, hnext⟩ :=
            moreItems_of_parseMoreItems fuel hending fun item hmem => hall item (.tail _ hmem)
          refine ⟨_, .array (hblank.append hinner) hvalue hbody, ?_⟩
          simp only [List.append_assoc, ← hnext, ← hmore, ← htext]

/-- The further items of a closed array are spelled by the characters taken. -/
theorem moreItems_of_parseMoreItems (fuel : Nat) {text : List Char}
    (hclosed : (parseMoreItems fuel text).2.1 = .closed)
    (hwhole : ∀ item ∈ (parseMoreItems fuel text).1, item.Whole) :
    ∃ body, MoreItems (parseMoreItems fuel text).1 body ∧
      text = body ++ (parseMoreItems fuel text).2.2 := by
  obtain ⟨blank, hblank, htext⟩ := exists_blank text
  cases fuel with
  | zero => cases hclosed
  | succ fuel =>
    rw [parseMoreItems] at hclosed hwhole ⊢
    cases hskip : skipSpaces text with
    | nil =>
      rw [hskip] at hclosed
      cases hclosed
    | cons c more =>
      rw [hskip] at htext
      simp only [hskip] at hclosed hwhole ⊢
      split_ifs at hclosed hwhole ⊢ with hclose hcomma
      · exact ⟨blank ++ [']'], .close hblank, by rw [htext, hclose]; simp⟩
      · obtain ⟨after, hafter, hbehind⟩ := exists_blank more
        cases hnext : skipSpaces more with
        | nil =>
          rw [hnext] at hclosed
          cases hclosed
        | cons d last =>
          rw [hnext] at hbehind
          simp only [hnext] at hclosed hwhole ⊢
          split_ifs at hclosed hwhole ⊢ with hend
          obtain ⟨inner, value, hinner, hvalue, hmore⟩ :=
            value_of_parseValue fuel (hwhole _ List.mem_cons_self)
          obtain ⟨body, hbody, hlast⟩ :=
            moreItems_of_parseMoreItems fuel hclosed fun item hmem => hwhole item (.tail _ hmem)
          refine ⟨_, .comma hblank (hafter.append hinner) hvalue hbody, ?_⟩
          simp only [List.append_assoc, List.cons_append, ← hlast, ← hmore, ← hbehind]
          rw [← hcomma, ← htext]

/-- An object without fault is spelled by its brace and the characters taken. -/
theorem value_of_parseObject (fuel : Nat) {text : List Char}
    (hwhole : (parseObject fuel text).1.Whole) :
    ∃ body, Value (parseObject fuel text).1 ('\x7b' :: body) ∧
      text = body ++ (parseObject fuel text).2 := by
  obtain ⟨blank, hblank, htext⟩ := exists_blank text
  cases fuel with
  | zero => cases hwhole
  | succ fuel =>
    rw [parseObject] at hwhole ⊢
    cases hskip : skipSpaces text with
    | nil =>
      rw [hskip] at hwhole
      cases hwhole
    | cons c more =>
      rw [hskip] at htext
      simp only [hskip] at hwhole ⊢
      split_ifs at hwhole ⊢ with hclose hquote
      · exact ⟨blank ++ ['\x7d'], .emptyObject hblank, by rw [htext, hclose]; simp⟩
      · dsimp only at hwhole ⊢
        generalize hending : (parseField fuel more).2.1 = ending at hwhole ⊢
        cases hwhole with
        | object hkeys hvalues =>
          obtain ⟨body, hbody, hmore⟩ := fields_of_parseField fuel hending hkeys hvalues
          refine ⟨_, .object hblank hbody, ?_⟩
          rw [List.append_assoc, List.cons_append, ← hmore, ← hquote, ← htext]
      · cases hwhole

/-- The fields of a closed object are spelled by the quotation mark and the characters taken. -/
theorem fields_of_parseField (fuel : Nat) {text : List Char}
    (hclosed : (parseField fuel text).2.1 = .closed)
    (hkeys : ∀ field ∈ (parseField fuel text).1, field.1.Whole)
    (hvalues : ∀ field ∈ (parseField fuel text).1, field.2.Whole) :
    ∃ body, Fields (parseField fuel text).1 ('"' :: body) ∧
      text = body ++ (parseField fuel text).2.2 := by
  cases fuel with
  | zero => cases hclosed
  | succ fuel =>
    rw [parseField] at hclosed hkeys hvalues ⊢
    cases hskipped : (parseQuoted text).1.skipped with
    | some fault => simp [hskipped] at hclosed
    | none =>
      obtain ⟨pieces, body, hq, hbody, htext⟩ := piecesText_of_parseQuoted (.inl hskipped)
      obtain ⟨before, hbefore, hbehind⟩ := exists_blank (parseQuoted text).2
      simp only [hskipped] at hclosed hkeys hvalues ⊢
      cases hskip : skipSpaces (parseQuoted text).2 with
      | nil =>
        rw [hskip] at hclosed
        cases hclosed
      | cons c more =>
        rw [hskip] at hbehind
        simp only [hskip] at hclosed hkeys hvalues ⊢
        split_ifs at hclosed hkeys hvalues ⊢ with hcolon
        dsimp only at hclosed hkeys hvalues ⊢
        obtain ⟨after, value, hafter, hvalue, hmore⟩ :=
          value_of_parseValue fuel (hvalues _ List.mem_cons_self)
        obtain ⟨last, hlast, hnext⟩ := moreFields_of_parseMoreFields fuel hclosed
          (fun field hmem => hkeys field (.tail _ hmem))
          (fun field hmem => hvalues field (.tail _ hmem))
        rw [hq]
        refine ⟨_, .mk hbody hbefore hafter hvalue hlast, ?_⟩
        simp only [List.append_assoc, List.cons_append, ← hnext, ← hmore]
        rw [← hcolon, ← hbehind, ← htext]

/-- The further fields of a closed object are spelled by the characters taken. -/
theorem moreFields_of_parseMoreFields (fuel : Nat) {text : List Char}
    (hclosed : (parseMoreFields fuel text).2.1 = .closed)
    (hkeys : ∀ field ∈ (parseMoreFields fuel text).1, field.1.Whole)
    (hvalues : ∀ field ∈ (parseMoreFields fuel text).1, field.2.Whole) :
    ∃ body, MoreFields (parseMoreFields fuel text).1 body ∧
      text = body ++ (parseMoreFields fuel text).2.2 := by
  obtain ⟨blank, hblank, htext⟩ := exists_blank text
  cases fuel with
  | zero => cases hclosed
  | succ fuel =>
    rw [parseMoreFields] at hclosed hkeys hvalues ⊢
    cases hskip : skipSpaces text with
    | nil =>
      rw [hskip] at hclosed
      cases hclosed
    | cons c more =>
      rw [hskip] at htext
      simp only [hskip] at hclosed hkeys hvalues ⊢
      split_ifs at hclosed hkeys hvalues ⊢ with hclose hcomma
      · exact ⟨blank ++ ['\x7d'], .close hblank, by rw [htext, hclose]; simp⟩
      · obtain ⟨after, hafter, hbehind⟩ := exists_blank more
        cases hnext : skipSpaces more with
        | nil =>
          rw [hnext] at hclosed
          cases hclosed
        | cons d last =>
          rw [hnext] at hbehind
          simp only [hnext] at hclosed hkeys hvalues ⊢
          split_ifs at hclosed hkeys hvalues ⊢ with hquote
          obtain ⟨body, hbody, hlast⟩ := fields_of_parseField fuel hclosed hkeys hvalues
          refine ⟨_, .comma hblank hafter hbody, ?_⟩
          rw [List.append_assoc, List.cons_append, List.append_assoc, List.cons_append, ← hlast,
            ← hquote, ← hbehind, ← hcomma, ← htext]

end

/-- A text that is read as a whole value, with nothing behind it, spells that value. -/
theorem written_of_parse {node : Node} {text : String} (h : parse text = ⟨node, false⟩)
    (hwhole : node.Whole) : Written node text := by
  obtain ⟨hroot, htrailing⟩ : (parseValue (2 * text.toList.length + 2) text.toList).1 = node ∧
      skipSpaces (parseValue (2 * text.toList.length + 2) text.toList).2 = [] := by
    simpa [parse, parseChars] using h
  rw [← hroot] at hwhole ⊢
  obtain ⟨before, value, hbefore, hvalue, htext⟩ := value_of_parseValue _ hwhole
  obtain ⟨after, hafter, hrest⟩ := exists_blank
    (parseValue (2 * text.toList.length + 2) text.toList).2
  rw [htrailing, List.append_nil] at hrest
  exact ⟨before, value, after, hbefore, hvalue, hafter, by rw [← hrest]; exact htext⟩

/-! ## Skipping -/

/-- An array can be skipped when it is closed and each item can be skipped. -/
theorem skipItems_eq_none {items : List Node} {ending : Ending} :
    skipItems items ending = none ↔ ending = .closed ∧ ∀ item ∈ items, item.skipFault = none := by
  induction items with
  | nil => cases ending <;> simp [skipItems]
  | cons item items ih =>
    rw [skipItems]
    cases hitem : item.skipFault with
    | some fault => simp [hitem]
    | none => simp [hitem, ih]

/-- Each key and each value can be skipped. -/
def Skippable (fields : List (Quoted × Node)) : Prop :=
  (∀ field ∈ fields, field.1.skipped = none) ∧ ∀ field ∈ fields, field.2.skipFault = none

/-- An object can be skipped when it is closed and its fields can be skipped. -/
theorem skipFields_eq_none {fields : List (Quoted × Node)} {ending : Ending} :
    skipFields fields ending = none ↔ ending = .closed ∧ Skippable fields := by
  unfold Skippable
  induction fields with
  | nil => cases ending <;> simp [skipFields]
  | cons field fields ih =>
    obtain ⟨key, value⟩ := field
    rw [skipFields]
    cases hkey : key.skipped with
    | some fault => simp [hkey]
    | none =>
      cases hvalue : value.skipFault with
      | some fault => simp [hvalue]
      | none => simp [hkey, hvalue, ih]

mutual

/-- What spells a value can be skipped. -/
theorem Value.skipFault_eq : ∀ {node : Node} {text : List Char}, Value node text →
    node.skipFault = none
  | _, _, .null | _, _, .yes | _, _, .no | _, _, .number _ | _, _, .text _ => rfl
  | _, _, .emptyArray _ | _, _, .emptyObject _ => rfl
  | _, _, .array _ hfirst hmore => by
    rw [Node.skipFault, skipItems_eq_none]
    exact ⟨rfl, List.forall_mem_cons.2 ⟨hfirst.skipFault_eq, hmore.skipFault_eq⟩⟩
  | _, _, .object _ hfields => by
    rw [Node.skipFault, skipFields_eq_none]
    exact ⟨rfl, hfields.skippable⟩

/-- The items that follow an item of an array can be skipped. -/
theorem MoreItems.skipFault_eq : ∀ {items : List Node} {text : List Char}, MoreItems items text →
    ∀ item ∈ items, item.skipFault = none
  | _, _, .close _ => fun _ hmem => absurd hmem List.not_mem_nil
  | _, _, .comma _ _ hnext hmore =>
    List.forall_mem_cons.2 ⟨hnext.skipFault_eq, hmore.skipFault_eq⟩

/-- The fields of an object can be skipped. -/
theorem Fields.skippable : ∀ {fields : List (Quoted × Node)} {text : List Char},
    Fields fields text → Skippable fields
  | _, _, .mk _ _ _ hvalue hmore =>
    ⟨List.forall_mem_cons.2 ⟨rfl, hmore.skippable.1⟩,
      List.forall_mem_cons.2 ⟨hvalue.skipFault_eq, hmore.skippable.2⟩⟩

/-- The fields that follow a field of an object can be skipped. -/
theorem MoreFields.skippable : ∀ {fields : List (Quoted × Node)} {text : List Char},
    MoreFields fields text → Skippable fields
  | _, _, .close _ => by simp [Skippable]
  | _, _, .comma _ _ hfields => hfields.skippable

end

/-- A text that spells a value spells one that can be skipped. -/
theorem Written.skipFault_eq {node : Node} {text : String} (h : Written node text) :
    node.skipFault = none := by
  obtain ⟨_, _, _, _, hvalue, _⟩ := h
  exact hvalue.skipFault_eq

/-- What holds of a value when it holds of the values in it holds of every value. -/
theorem Node.induct {motive : Node → Prop} (null : motive .null)
    (bool : ∀ value, motive (.bool value)) (number : ∀ n, motive (.number n))
    (text : ∀ q, motive (.text q))
    (array : ∀ items ending, (∀ item ∈ items, motive item) → motive (.array items ending))
    (object : ∀ fields ending, (∀ field ∈ fields, motive field.2) → motive (.object fields ending))
    (absent : motive .absent) (broken : ∀ onRead onSkip, motive (.broken onRead onSkip)) :
    ∀ node, motive node := by
  refine @Node.rec motive (fun items => ∀ item ∈ items, motive item)
    (fun fields => ∀ field ∈ fields, motive field.2) (fun field => motive field.2) null bool number
    text array object absent broken ?noItems ?items ?noFields ?fields fun _ _ h => h
  case noItems => exact fun _ hmem => absurd hmem List.not_mem_nil
  case items => exact fun _ _ hitem hitems => List.forall_mem_cons.2 ⟨hitem, hitems⟩
  case noFields => exact fun _ hmem => absurd hmem List.not_mem_nil
  case fields => exact fun _ _ hfield hfields => List.forall_mem_cons.2 ⟨hfield, hfields⟩

/-- A value that can be skipped has no faulty place. -/
theorem Node.whole_of_skipFault {node : Node} (h : node.skipFault = none) : node.Whole := by
  induction node using Node.induct with
  | null => exact .null
  | bool value => exact .bool value
  | number n => exact .number n
  | text q => exact .text (.inl h)
  | array items ending ih =>
    rw [Node.skipFault, skipItems_eq_none] at h
    obtain ⟨rfl, hitems⟩ := h
    exact .array fun item hmem => ih item hmem (hitems item hmem)
  | object fields ending ih =>
    rw [Node.skipFault, skipFields_eq_none] at h
    obtain ⟨rfl, hkeys, hvalues⟩ := h
    exact .object (fun field hmem => .inl (hkeys field hmem))
      fun field hmem => ih field hmem (hvalues field hmem)
  | absent => exact absurd h (Option.some_ne_none _)
  | broken onRead onSkip => exact absurd h (Option.some_ne_none _)

/-- The texts that spell a value are those that are read as the value, and as nothing else, when the
value has no faulty place. -/
theorem written_iff {node : Node} {text : String} :
    Written node text ↔ parse text = ⟨node, false⟩ ∧ node.Whole :=
  ⟨fun h => ⟨h.parse_eq, Node.whole_of_skipFault h.skipFault_eq⟩, fun h => written_of_parse h.1 h.2⟩

end SceneWiring.Json
