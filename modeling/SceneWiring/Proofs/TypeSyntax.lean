import SceneWiring.TypeRef
/-!
# Written types as trees

A written type is a dotted name, perhaps with type arguments, or it is made of other types: a type
inside another, a nullable type, a tuple, an array. Type arguments are separated by commas, but so
are the parts of a tuple, and commas stand between the brackets of an array of several dimensions.
The number of arguments is read off the text by a scan that heeds angle brackets alone. Main
statement: the scan counts the commas between the arguments, and with them the commas of tuples and
arrays that no further angle brackets enclose.
-/

namespace SceneWiring

/-- A character that groups the parts of a written type: a bracket or a comma. -/
def isGrouping (c : Char) : Bool :=
  c == '<' || c == '>' || c == '(' || c == ')' || c == '[' || c == ']' || c == ','

/-- A text without brackets and commas, as any dotted name is. -/
structure PlainText where
  /-- The characters of the text. -/
  chars : List Char
  /-- None of them is a bracket or a comma. -/
  plain : chars.all (!isGrouping ·) = true

/-- No character of the text is a bracket or a comma. -/
theorem PlainText.isGrouping_eq_false (text : PlainText) :
    ∀ c ∈ text.chars, isGrouping c = false := by
  intro c hc
  have hplain := List.all_eq_true.1 text.plain c hc
  rwa [Bool.not_eq_true'] at hplain

mutual

/-- A type as it is written. -/
inductive TypeSyntax where
  /-- A dotted name. -/
  | name (text : PlainText)
  /-- A dotted name with type arguments. -/
  | applied (text : PlainText) (arguments : ArgumentList)
  /-- A type inside another one, as in `Map<int>.Entry`. -/
  | inner (outer type : TypeSyntax)
  /-- A type with the mark of a nullable type. -/
  | nullable (type : TypeSyntax)
  /-- A tuple of types. -/
  | tuple (parts : ArgumentList)
  /-- An array with that many commas between its brackets. -/
  | array (element : TypeSyntax) (commas : Nat)

/-- Types in a row, one at least, with a comma between two of them and spaces around the comma. -/
inductive ArgumentList where
  | one (type : TypeSyntax)
  | more (type : TypeSyntax) (before after : Nat) (rest : ArgumentList)

end

mutual

/-- The text of a type. -/
def TypeSyntax.chars : TypeSyntax → List Char
  | .name text => text.chars
  | .applied text arguments => text.chars ++ '<' :: (arguments.chars ++ ['>'])
  | .inner outer type => outer.chars ++ '.' :: type.chars
  | .nullable type => type.chars ++ ['?']
  | .tuple parts => '(' :: (parts.chars ++ [')'])
  | .array element commas => element.chars ++ '[' :: (List.replicate commas ',' ++ [']'])

/-- The text of types in a row. -/
def ArgumentList.chars : ArgumentList → List Char
  | .one type => type.chars
  | .more type before after rest =>
    type.chars ++
      (List.replicate before ' ' ++ ',' :: (List.replicate after ' ' ++ rest.chars))

end

/-- The number of commas between the types of a row. -/
def ArgumentList.separators : ArgumentList → Nat
  | .one _ => 0
  | .more _ _ _ rest => rest.separators + 1

/-- The number of types in a row. -/
def ArgumentList.count (arguments : ArgumentList) : Nat := arguments.separators + 1

mutual

/-- The number of commas in a type that stand in tuples and arrays, but in no angle brackets. -/
def TypeSyntax.looseCommas : TypeSyntax → Nat
  | .name _ => 0
  | .applied _ _ => 0
  | .inner outer type => outer.looseCommas + type.looseCommas
  | .nullable type => type.looseCommas
  | .tuple parts => parts.separators + parts.looseCommas
  | .array element commas => element.looseCommas + commas

/-- The number of such commas in all types of a row. -/
def ArgumentList.looseCommas : ArgumentList → Nat
  | .one type => type.looseCommas
  | .more type _ _ rest => type.looseCommas + rest.looseCommas

end

mutual

/-- There are neither tuples nor arrays anywhere in the type. -/
def TypeSyntax.isSimple : TypeSyntax → Bool
  | .name _ => true
  | .applied _ arguments => arguments.isSimple
  | .inner outer type => outer.isSimple && type.isSimple
  | .nullable type => type.isSimple
  | .tuple _ => false
  | .array _ _ => false

/-- There are neither tuples nor arrays anywhere in the types of a row. -/
def ArgumentList.isSimple : ArgumentList → Bool
  | .one type => type.isSimple
  | .more type _ _ rest => type.isSimple && rest.isSimple

end

mutual

/-- A type without tuples and arrays has no commas of theirs. -/
theorem TypeSyntax.looseCommas_of_isSimple (type : TypeSyntax) (h : type.isSimple = true) :
    type.looseCommas = 0 := by
  cases type with
  | name | applied => rfl
  | tuple | array => cases h
  | nullable type => exact type.looseCommas_of_isSimple h
  | inner outer type =>
    obtain ⟨houter, htype⟩ := Bool.and_eq_true_iff.1 h
    rw [TypeSyntax.looseCommas, outer.looseCommas_of_isSimple houter,
      type.looseCommas_of_isSimple htype]

/-- Types without tuples and arrays have no commas of theirs. -/
theorem ArgumentList.looseCommas_of_isSimple (arguments : ArgumentList)
    (h : arguments.isSimple = true) : arguments.looseCommas = 0 := by
  cases arguments with
  | one type => exact type.looseCommas_of_isSimple h
  | more type before after rest =>
    obtain ⟨htype, hrest⟩ := Bool.and_eq_true_iff.1 h
    rw [ArgumentList.looseCommas, type.looseCommas_of_isSimple htype,
      rest.looseCommas_of_isSimple hrest]

end

/-! ## The scan for commas -/

/-- As many of some commas as the scan counts when that many further brackets enclose them: all of
them directly inside the outermost brackets, and none deeper. -/
def countedAt (depth commas : Nat) : Nat := if depth = 0 then commas else 0

/-- Commas are counted together or apart. -/
theorem countedAt_add (depth m n : Nat) :
    countedAt depth (m + n) = countedAt depth m + countedAt depth n := by
  unfold countedAt
  split <;> rfl

/-- Where there is no comma, none is counted. -/
theorem countedAt_zero (depth : Nat) : countedAt depth 0 = 0 := ite_self 0

section Scan

variable (depth : Nat) (rest : List Char)

/-- The scan passes over a character that is no angle bracket and no comma. -/
theorem topCommas_cons_other {c : Char} (h : c ∉ ['<', '>', ',']) :
    topCommas depth (c :: rest) = topCommas depth rest := by
  simp only [List.mem_cons, List.not_mem_nil, or_false, not_or] at h
  rw [topCommas, if_neg h.1, if_neg h.2.1, if_neg fun hcomma => h.2.2 hcomma.1]

/-- The scan passes over a text without brackets and commas. -/
theorem topCommas_append_plain {front : List Char} (h : ∀ c ∈ front, isGrouping c = false) :
    topCommas depth (front ++ rest) = topCommas depth rest := by
  induction front with
  | nil => rfl
  | cons c front ih =>
    have hc : c ∉ ['<', '>', ','] := by
      intro hmem
      have hplain := h c List.mem_cons_self
      simp only [List.mem_cons, List.not_mem_nil, or_false] at hmem
      rcases hmem with rfl | rfl | rfl <;> cases hplain
    have hfront := ih fun d hd => h d (List.mem_cons_of_mem c hd)
    rw [List.cons_append, topCommas_cons_other depth _ hc]
    exact hfront

/-- The scan passes over spaces. -/
theorem topCommas_append_spaces (n : Nat) :
    topCommas depth (List.replicate n ' ' ++ rest) = topCommas depth rest :=
  topCommas_append_plain depth rest fun _ hc => List.eq_of_mem_replicate hc ▸ rfl

/-- An opening angle bracket leads one level deeper. -/
theorem topCommas_cons_open : topCommas depth ('<' :: rest) = topCommas (depth + 1) rest := by
  rw [topCommas, if_pos rfl]

/-- A closing angle bracket leads one level back. -/
theorem topCommas_cons_close : topCommas (depth + 1) ('>' :: rest) = topCommas depth rest := by
  rw [topCommas, if_neg (by decide), if_pos rfl, Nat.add_sub_cancel]

/-- A comma is counted directly inside the outermost angle brackets. -/
theorem topCommas_cons_comma :
    topCommas (depth + 1) (',' :: rest) = countedAt depth 1 + topCommas (depth + 1) rest := by
  rw [topCommas, if_neg (by decide), if_neg (by decide), countedAt]
  by_cases hdepth : depth = 0
  · rw [if_pos ⟨rfl, by omega⟩, if_pos hdepth, Nat.add_comm]
  · rw [if_neg (by omega), if_neg hdepth, Nat.zero_add]

/-- Commas in a row are counted like each of them. -/
theorem topCommas_append_commas (n : Nat) :
    topCommas (depth + 1) (List.replicate n ',' ++ rest) =
      countedAt depth n + topCommas (depth + 1) rest := by
  induction n with
  | zero => rw [countedAt_zero, Nat.zero_add, List.replicate_zero, List.nil_append]
  | succ n ih =>
    rw [List.replicate_succ, List.cons_append, topCommas_cons_comma, ih, countedAt_add]
    omega

end Scan

mutual

/-- Inside angle brackets the scan leaves a type at the depth at which it has come to it, and of the
commas in it counts the loose ones, directly inside the outermost brackets. The induction is for any
depth, since the arguments of the type are one level deeper, and for any text behind the type. -/
theorem TypeSyntax.topCommas_chars_append (type : TypeSyntax) (depth : Nat) (rest : List Char) :
    topCommas (depth + 1) (type.chars ++ rest) =
      countedAt depth type.looseCommas + topCommas (depth + 1) rest := by
  cases type with
  | name text =>
    rw [TypeSyntax.chars, TypeSyntax.looseCommas, countedAt_zero, Nat.zero_add]
    exact topCommas_append_plain _ _ text.isGrouping_eq_false
  | applied text arguments =>
    have harguments := arguments.topCommas_chars_append (depth + 1) ('>' :: rest)
    rw [countedAt, if_neg (Nat.succ_ne_zero depth), Nat.zero_add,
      topCommas_cons_close] at harguments
    rw [TypeSyntax.chars, TypeSyntax.looseCommas, countedAt_zero, Nat.zero_add, List.append_assoc,
      topCommas_append_plain _ _ text.isGrouping_eq_false, List.cons_append, List.append_assoc,
      topCommas_cons_open]
    exact harguments
  | inner outer type =>
    rw [TypeSyntax.chars, TypeSyntax.looseCommas, List.append_assoc,
      outer.topCommas_chars_append, List.cons_append,
      topCommas_cons_other _ _ (by decide), type.topCommas_chars_append,
      countedAt_add, Nat.add_assoc]
  | nullable type =>
    rw [TypeSyntax.chars, TypeSyntax.looseCommas, List.append_assoc,
      type.topCommas_chars_append, List.singleton_append,
      topCommas_cons_other _ _ (by decide)]
  | tuple parts =>
    rw [TypeSyntax.chars, TypeSyntax.looseCommas, List.cons_append,
      topCommas_cons_other _ _ (by decide), List.append_assoc,
      parts.topCommas_chars_append, List.singleton_append,
      topCommas_cons_other _ _ (by decide)]
  | array element commas =>
    rw [TypeSyntax.chars, TypeSyntax.looseCommas, List.append_assoc,
      element.topCommas_chars_append, List.cons_append,
      topCommas_cons_other _ _ (by decide), List.append_assoc,
      topCommas_append_commas, List.singleton_append,
      topCommas_cons_other _ _ (by decide), countedAt_add, Nat.add_assoc]

/-- Inside angle brackets the scan counts the commas between the types of a row with their loose
ones, directly inside the outermost brackets. -/
theorem ArgumentList.topCommas_chars_append (arguments : ArgumentList) (depth : Nat)
    (rest : List Char) :
    topCommas (depth + 1) (arguments.chars ++ rest) =
      countedAt depth (arguments.separators + arguments.looseCommas) +
        topCommas (depth + 1) rest := by
  cases arguments with
  | one type =>
    rw [ArgumentList.chars, ArgumentList.separators, ArgumentList.looseCommas, Nat.zero_add]
    exact type.topCommas_chars_append depth rest
  | more type before after others =>
    rw [ArgumentList.chars, List.append_assoc, type.topCommas_chars_append, List.append_assoc,
      topCommas_append_spaces, List.cons_append, topCommas_cons_comma, List.append_assoc,
      topCommas_append_spaces, others.topCommas_chars_append, ArgumentList.separators,
      ArgumentList.looseCommas]
    simp only [countedAt_add]
    omega

end

/-- In a list of type arguments the scan counts the commas between them and their loose commas, and
goes on behind the list as if it had not been there. -/
theorem ArgumentList.topCommas_bracketed (arguments : ArgumentList) (rest : List Char) :
    topCommas 0 ('<' :: (arguments.chars ++ '>' :: rest)) =
      arguments.separators + arguments.looseCommas + topCommas 0 rest := by
  rw [topCommas_cons_open, arguments.topCommas_chars_append, topCommas_cons_close, countedAt,
    if_pos rfl]

/-- A name with type arguments behind it. -/
def withArguments (name : String) (arguments : ArgumentList) : String :=
  name ++ "<" ++ String.ofList arguments.chars ++ ">"

/-- The characters of a name with type arguments. -/
theorem toList_withArguments (name : String) (arguments : ArgumentList) :
    (withArguments name arguments).toList =
      name.toList ++ '<' :: (arguments.chars ++ ['>']) := by
  simp only [withArguments, String.toList_append, String.toList_ofList, List.append_assoc]
  rfl

/-- A name with type arguments and with some text behind them. -/
theorem withArguments_append (name : String) (arguments : ArgumentList) (suffix : String) :
    withArguments name arguments ++ suffix =
      String.ofList (name.toList ++ '<' :: (arguments.chars ++ '>' :: suffix.toList)) := by
  rw [← String.toList_inj, String.toList_append, toList_withArguments, String.toList_ofList]
  simp only [List.append_assoc, List.cons_append, List.nil_append]

end SceneWiring
