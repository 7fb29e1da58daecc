import SceneWiring.Proofs.DeclaredEnums
import SceneWiring.Proofs.FragmentRows
/-!
# Enumerations that are read back

The enumeration that a class asks for is written twice: as an enumeration behind the class, with an
entry for each field, and as a look-up inside it, with a case for each field. Two readers take these
texts apart again. Main statement: for any fields both readers get the names of the static read-only
fields that the compiler has not made, in the order of declaration, and each case returns the field of
its own name.
-/

namespace SceneWiring

/-! ## The reader of an enumeration -/

/-- The name in the row of an entry: what stands between a tab and a comma. -/
def readEntry (row : Row) : Option String := do
  let rest ← row.dropPrefix? ['\t']
  let name ← rest.dropSuffix? [',']
  return String.ofList name

/-- The rows of an enumeration before its entries. -/
def enumFront (enumName : String) : List Row :=
  fragmentRows [.line ["public enum ", enumName]] ++ [['\x7b']]

/-- The entries of an enumeration: all that stands in the braces behind its name. -/
def readEntries (enumName : String) (rows : List Row) : Option (List String) := do
  let rest ← rows.dropPrefix? (enumFront enumName)
  (rest.takeWhile (· != ['\x7d'])).mapM readEntry

/-- The row of an entry. -/
def entryRow (name : String) : Row := '\t' :: (name.toList ++ [','])

/-- The name is read back from the row of an entry. -/
theorem readEntry_entryRow (name : String) : readEntry (entryRow name) = some name := by
  have hprefix : (entryRow name).dropPrefix? ['\t'] = some (name.toList ++ [',']) :=
    List.dropPrefix?_append_of_beq _ (beq_self_eq_true ['\t'])
  have hsuffix : (name.toList ++ [',']).dropSuffix? [','] = some name.toList :=
    List.dropSuffix?_eq_some_iff.2 ⟨[','], rfl, beq_self_eq_true _⟩
  rw [readEntry, hprefix]
  simp [hsuffix]

/-- The names are read back from the rows of entries. -/
theorem mapM_readEntry (names : List String) :
    (names.map entryRow).mapM readEntry = some names := by
  induction names with
  | nil => rfl
  | cons name names ih =>
    rw [List.map_cons, List.mapM_cons, readEntry_entryRow, ih]
    rfl

/-- The row of an entry is one line when the name breaks no line. -/
theorem isPlainLine_entryRow {name : String} (h : '\n' ∉ name.toList) :
    Text.IsPlainLine (entryRow name) := by
  constructor
  · simp [entryRow, h]
  · rw [entryRow, ← List.cons_append, List.getLast?_concat]
    decide

/-- The lines of the entries in a block. -/
theorem map_indentRow_entries (names : List String) :
    (bodyRows (plainBody (names.map fun name => .line (Strategy.entryTokens name)))).map indentRow =
      names.map entryRow := by
  have hentry (name : String) :
      lineChars ((Strategy.entryTokens name).map Token.piece) = name.toList ++ [','] := by
    simp [Strategy.entryTokens, lineChars, Piece.chars]
  have hne (name : String) : lineChars ((Strategy.entryTokens name).map Token.piece) ≠ [] := by
    rw [hentry]
    exact List.concat_ne_nil _ _
  rw [plainBody_map_line, map_indentRow_bodyRows_lines names hne]
  exact List.map_congr_left fun name _ => by rw [hentry, entryRow]

/-- Behind the name of the enumeration stand the entries in braces. -/
theorem fragmentRows_outside (className enumName : String) {names : List String}
    (h : ∀ name ∈ names, '\n' ∉ name.toList) {after : List Code}
    (hafter : (Strategy.selectorEnum className enumName names).outside = some after) :
    fragmentRows after = enumFront enumName ++
      (names.map entryRow ++ ['\x7d'] ::
        fragmentRows (.blank :: plainBody (Strategy.extensionTokens className enumName))) := by
  cases hafter
  have hrows := fragmentRows_append [.line ["public enum ", enumName]]
    ([.block (plainBody (names.map fun name => .line (Strategy.entryTokens name)))] ++
      .blank :: plainBody (Strategy.extensionTokens className enumName))
  have hplain : ∀ row ∈ names.map entryRow, Text.IsPlainLine row := by
    rw [List.forall_mem_map]
    intro name hname
    exact isPlainLine_entryRow (h name hname)
  rw [fragmentRows_append [.block _], fragmentRows_block, map_indentRow_entries,
    Text.flatMap_lines_of_plain hplain] at hrows
  refine hrows.trans ?_
  simp [enumFront]

/-- The entries of an enumeration are read back from what stands behind the class. -/
theorem readEntries_outside (className enumName : String) {names : List String}
    (h : ∀ name ∈ names, '\n' ∉ name.toList) {after : List Code}
    (hafter : (Strategy.selectorEnum className enumName names).outside = some after) :
    readEntries enumName (fragmentRows after) = some names := by
  have hrows := fragmentRows_outside className enumName h hafter
  have hentry : ∀ row ∈ names.map entryRow, (row != ['\x7d']) = true := by
    rw [List.forall_mem_map]
    intro name _
    simp [entryRow]
  have hclosing (behind : List Row) : (['\x7d'] :: behind).takeWhile (· != ['\x7d']) = [] :=
    List.takeWhile_cons_of_neg (by decide)
  rw [hrows, readEntries, List.dropPrefix?_append_of_beq _ (beq_self_eq_true _)]
  simp only [Option.bind_eq_bind, Option.bind_some]
  rw [List.takeWhile_append_of_pos hentry, hclosing, List.append_nil, mapM_readEntry]

/-! ## The reader of a look-up -/

/-- A label and what is returned for it. -/
def returnRow (label field : Row) : Row := label ++ ": return ".toList ++ field ++ [';']

/-- The label and what is returned for it, when both are of the same length. So it is not asked where
the label ends, which may have any text in it. -/
def readReturn (row : Row) : Option (String × String) :=
  let size := (row.length - (returnRow [] []).length) / 2
  let label := row.take size
  let field := (row.drop (size + ": return ".length)).take size
  if row = returnRow label field then some (String.ofList label, String.ofList field) else none

/-- The cases in rows. The first row of each has the text before the label in it, or the first rows
when that text has line feeds in it: `before` and, in front of the label, `last`. The rows still to be
passed before the next label are `pending`. -/
def readCasesFrom (before : List Row) (last : Row) :
    List Row → List Row → Option (List (String × String))
  | pending, [] => if pending = before then some [] else none
  | expected :: pending, row :: rows =>
    if row = expected then readCasesFrom before last pending rows else none
  | [], row :: rows => do
    let rest ← row.dropPrefix? last
    let found ← readReturn rest
    let more ← readCasesFrom before last before rows
    return found :: more

/-- The rows of a case up to the label. -/
def caseFront (enumName : String) : List Row :=
  Text.lines (['\t', '\t'] ++ lineChars ["case ", enumName] ++ ['.'])

/-- The row that opens the switch of a look-up. -/
def switchRow : Row := '\t' :: lineChars ["switch (key)"]

/-- The row of a look-up for a key without a case. -/
def throwRow : Row := '\t' :: lineChars ["throw new ArgumentOutOfRangeException(\"key\");"]

/-- The rows of a look-up before its cases. -/
def lookupFront (className enumName : String) : List Row :=
  fragmentRows [.line ["public static ", className, " Get(", enumName, " key)"]] ++
    [['\x7b'], switchRow, ['\t', '\x7b']]

/-- The rows of a look-up behind its cases. -/
def lookupBack : List Row := [['\t', '\x7d'], throwRow, ['\x7d']]

/-- The cases of a look-up, each with its label and what is returned for it: all that stands in the
braces of its switch. -/
def readCases (className enumName : String) (rows : List Row) : Option (List (String × String)) := do
  let rest ← rows.dropPrefix? (lookupFront className enumName)
  let cases ← rest.dropSuffix? lookupBack
  let front := caseFront enumName
  readCasesFrom front.dropLast (front.getLast?.getD []) front.dropLast cases

/-- A label and what is returned for it are read back when they are of the same length. -/
theorem readReturn_returnRow {label field : Row} (h : label.length = field.length) :
    readReturn (returnRow label field) = some (String.ofList label, String.ofList field) := by
  have hsize : ((returnRow label field).length - (returnRow [] []).length) / 2 = label.length := by
    simp only [returnRow, List.length_append, List.length_nil]
    omega
  have hlabel : (returnRow label field).take label.length = label := by
    rw [returnRow, List.append_assoc, List.append_assoc, List.take_left]
  have hfield : ((returnRow label field).drop (label.length + ": return ".length)).take
      label.length = field := by
    have hfront : label.length + ": return ".length = (label ++ ": return ".toList).length := by
      rw [List.length_append, String.length_toList]
    rw [returnRow, hfront, List.append_assoc (label ++ _), List.drop_left, h, List.take_left]
  rw [readReturn, hsize, hlabel, hfield, if_pos rfl]

/-- The next case is read when the rows before its label have been passed. -/
theorem readCasesFrom_append (before pending : List Row) (last rest : Row) (rows : List Row) :
    readCasesFrom before last pending (pending ++ (last ++ rest) :: rows) =
      (readReturn rest).bind fun found =>
        (readCasesFrom before last before rows).map (found :: ·) := by
  induction pending with
  | nil =>
    rw [List.nil_append, readCasesFrom,
      List.dropPrefix?_append_of_beq rest (beq_self_eq_true last)]
    simp only [Option.bind_eq_bind, Option.bind_some, Option.map_eq_bind]
    rfl
  | cons expected pending ih =>
    rw [List.cons_append, readCasesFrom, if_pos rfl, ih]

/-- The rows of a case that returns the field of its own name, where `before` and `last` are the rows
up to the label. -/
def caseRows (before : List Row) (last : Row) (name : String) : List Row :=
  before ++ [last ++ returnRow name.toList name.toList]

/-- Cases that return the fields of their own names are read back. -/
theorem readCasesFrom_caseRows (before : List Row) (last : Row) (names : List String) :
    readCasesFrom before last before (names.flatMap (caseRows before last)) =
      some (names.map fun name => (name, name)) := by
  induction names with
  | nil => rw [List.flatMap_nil, readCasesFrom, if_pos rfl, List.map_nil]
  | cons name names ih =>
    have hname : readReturn (returnRow name.toList name.toList) = some (name, name) := by
      rw [readReturn_returnRow rfl, String.ofList_toList]
    rw [List.flatMap_cons, caseRows, List.append_assoc, List.singleton_append,
      readCasesFrom_append, hname, Option.bind_some, ih, Option.map_some, List.map_cons]

/-- What a case returns is one line when the name breaks no line. -/
theorem isPlainLine_returnRow {name : Row} (h : '\n' ∉ name) :
    Text.IsPlainLine (returnRow name name) := by
  constructor
  · simp [returnRow, h]
  · rw [returnRow, List.getLast?_concat]
    decide

/-- The rows of the cases are split into the rows up to the label and what a case returns. -/
theorem exists_flatMap_lines_case (enumName : String) :
    ∃ before last, caseFront enumName = before ++ [last] ∧
      ∀ names : List String, (∀ name ∈ names, '\n' ∉ name.toList) →
        ((names.map fun name => '\t' :: '\t' :: lineChars ((Strategy.caseTokens enumName name).map Token.piece)).flatMap
          fun row => Text.lines (row ++ ['\n'])) = names.flatMap (caseRows before last) := by
  obtain ⟨before, last, hfront, hopen⟩ := Text.exists_open_line []
    (['\t', '\t'] ++ lineChars ["case ", enumName]) (show '.' ≠ '\n' by decide)
  refine ⟨before, last, hfront, fun names hnames => ?_⟩
  rw [List.flatMap_map]
  refine List.flatMap_congr fun name hname => ?_
  have hrow : '\t' :: '\t' :: lineChars ((Strategy.caseTokens enumName name).map Token.piece) ++ ['\n'] =
      ['\t', '\t'] ++ lineChars ["case ", enumName] ++
        '.' :: (returnRow name.toList name.toList ++ ['\n']) := by
    simp [Strategy.caseTokens, lineChars, Piece.chars, returnRow]
  rw [hrow]
  exact hopen _ (isPlainLine_returnRow (hnames name hname)) (by simp [returnRow])

/-- The rows in the braces of a look-up, one level deeper. -/
theorem map_indentRow_lookupTokens (enumName : String) (names : List String) :
    (bodyRows (plainBody (Strategy.lookupTokens enumName names))).map indentRow =
      [switchRow, ['\t', '\x7b']] ++
        ((names.map fun name => '\t' :: '\t' :: lineChars ((Strategy.caseTokens enumName name).map Token.piece)) ++
          [['\t', '\x7d'], throwRow]) := by
  have hcases := map_indentRow_bodyRows_lines names
    fun name => show lineChars ((Strategy.caseTokens enumName name).map Token.piece) ≠ [] by
      simp [Strategy.caseTokens, lineChars, Piece.chars]
  simp only [Strategy.lookupTokens, plainBody, TokenCode.plain, plainBody_map_line, bodyRows, Code.rows, braced, hcases, List.map_append, List.map_cons,
    List.map_nil, List.map_map, List.append_nil, List.cons_append, List.nil_append,
    List.append_assoc]
  rfl

/-- Between the braces of its switch a look-up has a case for each name. -/
theorem exists_fragmentRows_declaration (className enumName : String) {names : List String}
    (h : ∀ name ∈ names, '\n' ∉ name.toList) {lookup : List Code}
    (hlookup : (Strategy.selectorEnum className enumName names).declaration = some lookup) :
    ∃ before last, caseFront enumName = before ++ [last] ∧
      fragmentRows lookup =
        lookupFront className enumName ++ (names.flatMap (caseRows before last) ++ lookupBack) := by
  cases hlookup
  -- Where the rows up to a label end depends on the name of the enumeration, which may break lines.
  obtain ⟨before, last, hfront, hcases⟩ := exists_flatMap_lines_case enumName
  have hopening : ([switchRow, ['\t', '\x7b']].flatMap fun row => Text.lines (row ++ ['\n'])) =
      [switchRow, ['\t', '\x7b']] := rfl
  have hclosing : ([['\t', '\x7d'], throwRow].flatMap fun row => Text.lines (row ++ ['\n'])) =
      [['\t', '\x7d'], throwRow] := rfl
  have hrows := fragmentRows_append
    [.line ["public static ", className, " Get(", enumName, " key)"]]
    [.block (plainBody (Strategy.lookupTokens enumName names))]
  rw [fragmentRows_block, map_indentRow_lookupTokens, List.flatMap_append, List.flatMap_append,
    hcases names h, hopening, hclosing] at hrows
  refine ⟨before, last, hfront, hrows.trans ?_⟩
  simp [lookupFront, lookupBack]

/-- The cases of a look-up are read back from the declaration. -/
theorem readCases_declaration (className enumName : String) {names : List String}
    (h : ∀ name ∈ names, '\n' ∉ name.toList) {lookup : List Code}
    (hlookup : (Strategy.selectorEnum className enumName names).declaration = some lookup) :
    readCases className enumName (fragmentRows lookup) =
      some (names.map fun name => (name, name)) := by
  obtain ⟨before, last, hfront, hrows⟩ :=
    exists_fragmentRows_declaration className enumName h hlookup
  have hclosed : (names.flatMap (caseRows before last) ++ lookupBack).dropSuffix? lookupBack =
      some (names.flatMap (caseRows before last)) :=
    List.dropSuffix?_eq_some_iff.2 ⟨_, rfl, beq_self_eq_true _⟩
  rw [hrows, readCases, List.dropPrefix?_append_of_beq _ (beq_self_eq_true _)]
  simp only [Option.bind_eq_bind, Option.bind_some]
  rw [hclosed, Option.bind_some, hfront, List.dropLast_concat, List.getLast?_concat,
    Option.getD_some, readCasesFrom_caseRows]

/-! ## The enumeration of a class -/

/-- A strategy that declares an enumeration for a class lists the fields of the class. -/
theorem Context.eq_selectorEnum_of_enum? {x : Context} {owner : TypeDecl} {a : Addition}
    (ha : a ∈ (x.resolveClass owner).additions) {enumName : String}
    (henum : a.strategy.enum? = some enumName) :
    a.strategy = .selectorEnum owner.declaredName enumName (listedFields owner) := by
  rw [additions_resolveClass] at ha
  obtain ⟨out, hout, haddition⟩ := List.mem_filterMap.1 ha
  obtain ⟨o, -, hanswers⟩ := exists_answers_of_mem_outcomes hout
  cases hanswers with
  | rejected => cases haddition
  | accepted serves turn =>
    cases haddition
    generalize o.site = site at serves
    generalize o.annotation = annotation at serves
    generalize a.strategy = strategy at serves henum
    cases serves with
    | selectorEnum name =>
      cases henum
      rfl
    | getNode | loadResource | findNode | injectAncestor | callMethod => cases henum

/-- A class without type parameters gets each enumeration that its attributes ask for. -/
theorem Context.exists_addition_of_enum {x : Context} {owner : TypeDecl}
    (hplain : owner.typeParameters = []) {a : Attribute} (ha : a ∈ owner.attributes)
    {enumName : String} (hasks : a.annotation? = some (.selectorEnum (some enumName))) :
    ∃ add ∈ (x.resolveClass owner).additions, add.strategy.enum? = some enumName := by
  have hasked : enumName ∈ owner.enumNames := by
    rw [TypeDecl.enumNames, hplain, List.isEmpty_nil, if_pos rfl]
    refine List.mem_filterMap.2 ⟨a, ha, ?_⟩
    rw [hasks]
    rfl
  rw [← x.enums_resolveClass] at hasked
  exact List.mem_filterMap.1 hasked

/-- For a class without type parameters and an attribute on it that asks for an enumeration by name,
the enumeration is declared, and whatever declares one of that name declares it and its look-up with
the same fields: the entries read back from the enumeration and the cases read back from the switch
are the static read-only fields that the compiler has not made, in the order of declaration, and each
case returns the field of its own name. When the class is met in the source and stands in no other,
both fragments stand in the text of its unit. -/
theorem enumeration_and_lookup_list_fields (x : Context) {d : TypeDecl}
    (hplain : d.typeParameters = []) (hfields : ∀ m ∈ d.fields, '\n' ∉ m.name.toList)
    {a : Attribute} (ha : a ∈ d.attributes) {enumName : String}
    (hasks : a.annotation? = some (.selectorEnum (some enumName))) :
    let names := (d.fields.filter fun m => m.isStatic && m.isReadonly && !m.implicit).map (·.name)
    (∃ add ∈ (x.resolveClass d).additions, add.strategy.enum? = some enumName) ∧
    ∀ add ∈ (x.resolveClass d).additions, add.strategy.enum? = some enumName →
      ∃ after lookup,
        add.strategy.outside = some after ∧ add.strategy.declaration = some lookup ∧
        readEntries enumName (fragmentRows after) = some names ∧
        readCases d.declaredName enumName (fragmentRows lookup) =
          some (names.map fun name => (name, name)) ∧
        (x.compilation.Met d → d.nestedIn? = none →
          x.unitOf d ∈ x.generate.units ∧ ∃ depth,
            linesAt depth (fragmentRows after) <:+: (x.unitOf d).text.toList ∧
            linesAt (depth + 1) (fragmentRows lookup) <:+: (x.unitOf d).text.toList) := by
  intro names
  refine ⟨Context.exists_addition_of_enum hplain ha hasks, fun add hadd henum => ?_⟩
  have hstrategy : add.strategy = .selectorEnum d.declaredName enumName names :=
    Context.eq_selectorEnum_of_enum? hadd henum
  have hnames : ∀ name ∈ names, '\n' ∉ name.toList := by
    intro name hname
    obtain ⟨m, hm, rfl⟩ := List.mem_map.1 hname
    exact hfields m (List.mem_of_mem_filter hm)
  have hentries := readEntries_outside d.declaredName enumName hnames rfl
  have hcases := readCases_declaration d.declaredName enumName hnames rfl
  obtain ⟨depth, houtside, hdeclared⟩ := ClassUnit.exists_fragments_infix_render
    (u := ⟨x.compilation.position d, (x.resolveClass d).additions⟩) x.config d hadd
  have hafter : add.strategy.outside =
      (Strategy.selectorEnum d.declaredName enumName names).outside := congrArg _ hstrategy
  have hlookup : add.strategy.declaration =
      (Strategy.selectorEnum d.declaredName enumName names).declaration := congrArg _ hstrategy
  refine ⟨_, _, hafter, hlookup, hentries, hcases, fun hmet houtermost => ⟨?_, depth, ?_, ?_⟩⟩
  · have hemits : x.Emits d := ⟨hmet, houtermost, List.ne_nil_of_mem hadd⟩
    rw [x.units_eq_map_unitOf]
    exact List.mem_map_of_mem (List.mem_filter.2 ⟨hmet.mem, decide_eq_true hemits⟩)
  · exact houtside _ hafter
  · exact hdeclared _ hlookup

/-- A vault that asks for an enumeration, with its fields in a mixed order: two jewels, a counter, a
label and a field that the compiler has made. -/
def vault : TypeDecl :=
  { name := "Vault", namespaceName? := some "Game", attributes := [kindAttribute],
    fields :=
      [{ name := "Ruby", type := ⟨"Game.Vault", false⟩, isStatic := true, isReadonly := true },
       { name := "count", type := ⟨"int", false⟩, isStatic := true },
       { name := "<Jade>k__BackingField", type := ⟨"Game.Vault", false⟩, isStatic := true,
         isReadonly := true, implicit := true },
       { name := "label", type := ⟨"string", false⟩, isReadonly := true },
       { name := "Jade", type := ⟨"Game.Vault", false⟩, isStatic := true, isReadonly := true }] }

/-- A node, a resource and the vault. -/
def vaultTypes : List TypeDecl :=
  [{ name := "Node", namespaceName? := some "Godot" },
   { name := "Resource", namespaceName? := some "Godot" }, vault]

/-- The vault under the default settings. -/
def vaultContext : Context where
  compilation := ⟨vaultTypes, [{ name := "Game.Vault" }], keyIndex vaultTypes,
    nameIndex vaultTypes, by decide +kernel, rfl, rfl⟩
  config := {}
  host := ⟨vaultTypes[0], vaultTypes[1], by decide +kernel, by decide +kernel⟩

/-- The unit of the vault lists the two jewels, in the enumeration and in its look-up. -/
theorem jewels_of_vault_listed :
    (vault.typeParameters = [] ∧ (∀ m ∈ vault.fields, '\n' ∉ m.name.toList) ∧
      kindAttribute ∈ vault.attributes ∧
      kindAttribute.annotation? = some (.selectorEnum (some "Kind"))) ∧
    ∃ unit ∈ vaultContext.generate.units, ∃ after lookup depth,
      readEntries "Kind" (fragmentRows after) = some ["Ruby", "Jade"] ∧
      readCases "Vault" "Kind" (fragmentRows lookup) =
        some [("Ruby", "Ruby"), ("Jade", "Jade")] ∧
      linesAt depth (fragmentRows after) <:+: unit.text.toList ∧
      linesAt (depth + 1) (fragmentRows lookup) <:+: unit.text.toList := by
  have hplain : vault.typeParameters = [] := rfl
  have hfields : ∀ m ∈ vault.fields, '\n' ∉ m.name.toList := by decide +kernel
  have ha : kindAttribute ∈ vault.attributes := List.mem_cons_self
  have hasks : kindAttribute.annotation? = some (.selectorEnum (some "Kind")) := by decide +kernel
  obtain ⟨⟨add, hadd, henum⟩, hall⟩ :=
    enumeration_and_lookup_list_fields vaultContext hplain hfields ha hasks
  obtain ⟨after, lookup, -, -, hentries, hcases, hemitted⟩ := hall add hadd henum
  have hmet : vaultContext.compilation.Met vault :=
    ⟨{ name := "Game.Vault" }, List.mem_singleton_self _, by decide +kernel⟩
  obtain ⟨hunit, depth, houtside, hdeclared⟩ := hemitted hmet rfl
  exact ⟨⟨hplain, hfields, ha, hasks⟩, _, hunit, after, lookup, depth, hentries, hcases, houtside,
    hdeclared⟩

end SceneWiring
