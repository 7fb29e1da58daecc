import Mathlib.Data.List.TakeWhile
import SceneWiring.Config
import SceneWiring.Declaration
import SceneWiring.Proofs.StatementRows
/-!
# Rows of a unit

The rows of a unit, put together from the rows of what the additions of a class contribute, and a
reader that goes the other way: it opens the blocks of the namespace and of the class, tells the
lifecycle method by its first rows and the constructor by its hook, and takes what is left for
declarations. Main statement: the reader gets back all contributions, in order, from the rows that
are put together.
-/

namespace SceneWiring

section Splitting

variable {α : Type} [BEq α] [LawfulBEq α]

/-- A list is split between two parts as each of them is. -/
theorem splitOn_append_cons_self (a : α) (xs ys : List α) :
    (xs ++ a :: ys).splitOn a = xs.splitOn a ++ ys.splitOn a := by
  induction xs with
  | nil => simp [List.splitOn_cons_eq_if_modifyHead]
  | cons x xs ih =>
    rw [List.cons_append, List.splitOn_cons_eq_if_modifyHead, List.splitOn_cons_eq_if_modifyHead,
      ih]
    split
    · rfl
    · cases hparts : xs.splitOn a with
      | nil => exact absurd hparts (List.splitOn_ne_nil a xs)
      | cons part parts => rfl

/-- A list is split before each of several parts. -/
theorem splitOn_append_flatMap (a : α) (xs : List α) (parts : List (List α)) :
    (xs ++ parts.flatMap (a :: ·)).splitOn a = xs.splitOn a ++ parts.flatMap (·.splitOn a) := by
  induction parts generalizing xs with
  | nil => simp
  | cons part parts ih =>
    rw [List.flatMap_cons, List.cons_append, splitOn_append_cons_self, ih, List.flatMap_cons]

omit [BEq α] [LawfulBEq α] in
/-- The first part, and each further one with the element in front. -/
theorem intercalate_cons (a : α) (xs : List α) (parts : List (List α)) :
    [a].intercalate (xs :: parts) = xs ++ parts.flatMap (a :: ·) := by
  induction parts generalizing xs with
  | nil => simp
  | cons part parts ih =>
    rw [List.intercalate_cons_cons, ih, List.flatMap_cons]
    simp

omit [BEq α] [LawfulBEq α] in
/-- What is put together is in what stands between the parts or in a part. -/
theorem mem_of_mem_intercalate {between : List α} {x : α} {parts : List (List α)}
    (h : x ∈ between.intercalate parts) : x ∈ between ∨ ∃ part ∈ parts, x ∈ part := by
  induction parts with
  | nil => cases h
  | cons part parts ih =>
    cases parts with
    | nil => exact .inr ⟨part, List.mem_cons_self, by simpa using h⟩
    | cons next parts =>
      rw [List.intercalate_cons_cons, List.mem_append, List.mem_append] at h
      rcases h with (hx | hx) | hx
      · exact .inr ⟨part, List.mem_cons_self, hx⟩
      · exact .inl hx
      · refine (ih hx).imp_right fun ⟨other, hother, hmem⟩ => ?_
        exact ⟨other, List.mem_cons_of_mem _ hother, hmem⟩

end Splitting

/-- The parts between empty rows; there are none when there are no rows. -/
def paragraphs (rows : List Row) : List (List Row) := if rows = [] then [] else rows.splitOn []

/-- Parts with rows, put together with an empty row between them, are split as each of them is. -/
theorem paragraphs_intercalate {parts : List (List Row)} (h : ∀ part ∈ parts, part ≠ []) :
    paragraphs ([[]].intercalate parts) = parts.flatMap (·.splitOn []) := by
  cases parts with
  | nil => rfl
  | cons part parts =>
    have hpart := h part List.mem_cons_self
    rw [paragraphs, intercalate_cons, if_neg (by simp [hpart]), splitOn_append_flatMap,
      List.flatMap_cons]

/-- Paragraphs are not split. -/
theorem flatMap_splitOn_of_paragraphs {parts : List (List Row)}
    (h : ∀ part ∈ parts, IsParagraph part) : parts.flatMap (·.splitOn []) = parts := by
  induction parts with
  | nil => rfl
  | cons part parts ih =>
    obtain ⟨hpart, hparts⟩ := List.forall_mem_cons.1 h
    rw [List.flatMap_cons, List.splitOn_eq_singleton hpart.nil_not_mem, ih hparts]
    rfl

/-- All parts differ from one that is not among them. -/
theorem bne_of_not_mem {part : List Row} {parts : List (List Row)} (h : part ∉ parts) :
    ∀ other ∈ parts, (other != part) = true :=
  fun _ hother => bne_iff_ne.2 fun heq => h (heq ▸ hother)

/-- Rows cut after each of a kind. -/
def cutAfter (last : Row) : List Row → List (List Row)
  | [] => []
  | row :: rest =>
    if row = last then [row] :: cutAfter last rest
    else
      match cutAfter last rest with
      | [] => [[row]]
      | part :: parts => (row :: part) :: parts

/-- Rows that are not of the kind are not cut. -/
theorem cutAfter_of_not_mem {last : Row} {rows : List Row} (h : last ∉ rows) (hne : rows ≠ []) :
    cutAfter last rows = [rows] := by
  induction rows with
  | nil => exact absurd rfl hne
  | cons row rest ih =>
    obtain ⟨hrow, hrest⟩ := not_or.1 (List.mem_cons.not.1 h)
    rw [cutAfter, if_neg (Ne.symm hrow)]
    cases rest with
    | nil => rfl
    | cons next rest => rw [ih hrest (List.cons_ne_nil _ _)]

/-- The first part ends in the first row of the kind. -/
theorem cutAfter_append {last : Row} {front : List Row} (h : last ∉ front) (rest : List Row) :
    cutAfter last (front ++ last :: rest) = (front ++ [last]) :: cutAfter last rest := by
  induction front with
  | nil => rw [List.nil_append, cutAfter, if_pos rfl, List.nil_append]
  | cons row front ih =>
    obtain ⟨hrow, hfront⟩ := not_or.1 (List.mem_cons.not.1 h)
    rw [List.cons_append, cutAfter, if_neg (Ne.symm hrow), ih hfront, List.cons_append]

/-- Parts that end in their only row of the kind are cut apart again. -/
theorem cutAfter_flatten_append {last : Row} {parts : List (List Row)} {rest : List Row}
    (h : ∀ part ∈ parts, ∃ front, part = front ++ [last] ∧ last ∉ front) (hrest : last ∉ rest)
    (hne : rest ≠ []) : cutAfter last (parts.flatten ++ rest) = parts ++ [rest] := by
  induction parts with
  | nil => exact cutAfter_of_not_mem hrest hne
  | cons part parts ih =>
    obtain ⟨⟨front, rfl, hfront⟩, hparts⟩ := List.forall_mem_cons.1 h
    rw [List.flatten_cons, List.append_assoc, List.append_assoc, List.singleton_append,
      cutAfter_append hfront, ih hparts, List.cons_append]

/-- Parts joined two by two, with an empty row between them. -/
def joinPairs : List (List Row) → List (List Row)
  | first :: second :: rest => (first ++ [] :: second) :: joinPairs rest
  | _ => []

/-- Pairs of paragraphs, each pair split at its empty row, are joined again. -/
theorem joinPairs_flatMap_splitOn {parts : List (List Row)}
    (h : ∀ part ∈ parts, ∃ first second, part = first ++ [] :: second ∧ [] ∉ first ∧ [] ∉ second) :
    joinPairs (parts.flatMap (·.splitOn [])) = parts := by
  induction parts with
  | nil => rfl
  | cons part parts ih =>
    obtain ⟨⟨first, second, rfl, hfirst, hsecond⟩, hrest⟩ := List.forall_mem_cons.1 h
    rw [List.flatMap_cons, List.splitOn_append_cons_self_of_not_mem hfirst,
      List.splitOn_eq_singleton hsecond, List.cons_append, List.singleton_append, joinPairs,
      ih hrest]

/-- The rows of a block, one level up, and the rows after it; `head` is the row before it. -/
def readBlock (head : Row) : List Row → Option (List Row × List Row)
  | first :: brace :: rest =>
    if first = head ∧ brace = ['\x7b'] then
      some ((rest.takeWhile (· != ['\x7d'])).map dedentRow,
        (rest.dropWhile (· != ['\x7d'])).drop 1)
    else none
  | _ => none

/-- A block is read as far as its own closing brace, since the rows in it are indented. -/
theorem readBlock_braced (head : Row) (rows after : List Row) :
    readBlock head (head :: (braced rows ++ after)) = some (rows, after) := by
  have hindented : ∀ row ∈ rows.map indentRow, (row != ['\x7d']) = true := by
    intro row hrow
    obtain ⟨inner, -, rfl⟩ := List.mem_map.1 hrow
    cases inner <;> simp [indentRow]
  have hback : (rows.map indentRow).map dedentRow = rows := by simp [Function.comp_def]
  rw [braced, List.cons_append, readBlock, if_pos ⟨rfl, rfl⟩, List.append_assoc,
    List.takeWhile_append_of_pos hindented, List.dropWhile_append_of_pos hindented,
    List.singleton_append, List.takeWhile_cons_of_neg (by simp),
    List.dropWhile_cons_of_neg (by simp), List.append_nil, hback, List.drop_one, List.tail_cons]

/-- A block with nothing after it is read. -/
theorem readBlock_block (head : Row) (rows : List Row) :
    readBlock head (head :: braced rows) = some (rows, []) := by
  have hblock := readBlock_braced head rows []
  rwa [List.append_nil] at hblock

/-- A block has no empty row when its rows are not empty. -/
theorem nil_not_mem_braced {rows : List Row} (h : [] ∉ rows) : [] ∉ braced rows := by
  simp [braced, h]

/-- A block holds no line feed when its rows hold none. -/
theorem feed_not_mem_braced {rows : List Row} (h : ∀ row ∈ rows, '\n' ∉ row) :
    ∀ row ∈ braced rows, '\n' ∉ row := by
  have hindented : ∀ row ∈ rows.map indentRow, '\n' ∉ row := by
    rw [List.forall_mem_map]
    intro row hrow
    cases row with
    | nil => exact List.not_mem_nil
    | cons c rest =>
      rw [indentRow, List.mem_cons, not_or]
      exact ⟨by decide, h _ hrow⟩
  rw [braced, List.forall_mem_cons, List.forall_mem_append, List.forall_mem_singleton]
  exact ⟨by decide, hindented, by decide⟩

/-- The rows before the namespace or the class: header, namespaces that are opened, an empty row. -/
def preambleRows (config : Config) : List Row :=
  (if config.header = "" then [] else [config.header.toList]) ++
    (config.usings.map fun (name : String) => lineChars ["using ", name, ";"]) ++ [[]]

/-- The row before the block of a namespace. -/
def namespaceHead (name : String) : Row := lineChars ["namespace ", name]

/-- Rows in the block of a namespace, or as they are when there is no namespace. -/
def spaceRows (namespaceName? : Option String) (rows : List Row) : List Row :=
  match namespaceName? with
  | none => rows
  | some name => if name = "" then rows else namespaceHead name :: braced rows

/-- The row before the block of the class. -/
def classHead (owner : TypeDecl) : Row := lineChars ["public partial class ", owner.declaredName]

/-- The row before the block of the constructor. -/
def constructorHead (owner : TypeDecl) : Row := lineChars ["public ", owner.name, "()"]

/-- The row that calls the hook. -/
def hookCall : Row := lineChars ["Constructor();"]

/-- The row before the block of the lifecycle method. -/
def overrideHead (config : Config) : Row :=
  lineChars ["public override void ", config.lifecycleMethod, "()"]

/-- The row that calls the lifecycle method of the base class. -/
def baseCall (config : Config) : Row := lineChars ["base.", config.lifecycleMethod, "();"]

/-- What is contributed to a class: the rows of its statements, of each kind in order. -/
structure Contributions where
  /-- The declarations. -/
  declarations : List (List Row)
  /-- The statements of the constructor. -/
  constructorParts : List (List Row)
  /-- The statements of the lifecycle method. -/
  overrideParts : List (List Row)
  /-- What goes after the class. -/
  outsideParts : List (List Row)
deriving DecidableEq, Repr

namespace Contributions

/-- The rows of the constructor. -/
def constructorRows (owner : TypeDecl) (p : Contributions) : List Row :=
  constructorHead owner :: braced (p.constructorParts.flatten ++ [hookCall])

/-- The rows of the lifecycle method. -/
def overrideRows (config : Config) (p : Contributions) : List Row :=
  overrideHead config :: braced (baseCall config :: p.overrideParts.flatMap ([] :: ·))

/-- The rows of each section of the class body. -/
def members (config : Config) (owner : TypeDecl) (p : Contributions) : List (List Row) :=
  p.declarations ++
    (if p.constructorParts = [] then [] else [p.constructorRows owner ++ [[], hookRow]]) ++
    (if p.overrideParts = [] then [] else [p.overrideRows config])

/-- The rows of the class and of what comes after it. -/
def classRows (config : Config) (owner : TypeDecl) (p : Contributions) : List Row :=
  classHead owner :: (braced ([[]].intercalate (p.members config owner)) ++
    p.outsideParts.flatMap ([] :: ·))

/-- The rows of the unit. -/
def unitRows (config : Config) (owner : TypeDecl) (p : Contributions) : List Row :=
  preambleRows config ++ spaceRows owner.namespaceName? (p.classRows config owner)

/-- The shapes by which contributions are told apart. -/
structure Shaped (p : Contributions) : Prop where
  /-- A declaration is a paragraph that does not look like a lifecycle method or a hook. -/
  declaration : ∀ d ∈ p.declarations, IsParagraph d ∧ d.length ≠ 3 ∧ d ≠ [hookRow]
  /-- A statement of the constructor is a paragraph up to its first closing brace. -/
  constructorPart : ∀ c ∈ p.constructorParts, IsParagraph c ∧
    ∃ front, c = front ++ [['\x7d']] ∧ ['\x7d'] ∉ front
  /-- A statement of the lifecycle method is a paragraph. -/
  overridePart : ∀ l ∈ p.overrideParts, IsParagraph l
  /-- What goes after the class comes as two paragraphs. -/
  outsidePart : ∀ o ∈ p.outsideParts, ∃ first second, o = first ++ [] :: second ∧
    IsParagraph first ∧ IsParagraph second

end Contributions

/-- What is read of a unit. -/
structure UnitReading where
  /-- The declarations at the start of the class body. -/
  declarations : List (List Row)
  /-- The statements of the constructor, if there are a constructor and a hook. -/
  constructorBody : Option (List (List Row))
  /-- The paragraphs of the lifecycle method, if there is one. -/
  overrideBody : Option (List (List Row))
  /-- What comes after the class, by pairs of paragraphs. -/
  outsideParts : List (List Row)
deriving DecidableEq, Repr

/-- The first paragraph of a lifecycle method. -/
def overrideOpening (config : Config) : List Row :=
  [overrideHead config, ['\x7b'], indentRow (baseCall config)]

/-- The paragraphs before the lifecycle method, and the paragraphs of its body. -/
def readOverride (config : Config) (parts : List (List Row)) :
    List (List Row) × Option (List (List Row)) :=
  let rows := [[]].intercalate (parts.dropWhile (· != overrideOpening config))
  (parts.takeWhile (· != overrideOpening config),
    (readBlock (overrideHead config) rows).map fun block => block.1.splitOn [])

/-- The paragraphs before the constructor, and the statements of its body. The constructor is the
paragraph before the hook. -/
def readConstructor (owner : TypeDecl) (parts : List (List Row)) :
    List (List Row) × Option (List (List Row)) :=
  match parts.dropWhile (· != [hookRow]) with
  | [] => (parts, none)
  | _ :: _ =>
    let front := parts.takeWhile (· != [hookRow])
    (front.dropLast,
      (readBlock (constructorHead owner) (front.getLastD [])).map fun block =>
        cutAfter ['\x7d'] block.1)

/-- What is read of the rows in the block of the class and of the rows after it. -/
def readClass (config : Config) (owner : TypeDecl) (body after : List Row) : UnitReading :=
  let (front, overrideBody) := readOverride config (paragraphs body)
  let (declarations, constructorBody) := readConstructor owner front
  ⟨declarations, constructorBody, overrideBody, joinPairs ((after.splitOn []).drop 1)⟩

/-- The rows in the block of the namespace, or all rows when there is no namespace. -/
def readNamespace (owner : TypeDecl) (rows : List Row) : Option (List Row) :=
  match owner.namespaceName? with
  | none => some rows
  | some name => if name = "" then some rows else (readBlock (namespaceHead name) rows).map (·.1)

/-- What is read of a unit for a class under some settings. -/
def readUnit (config : Config) (owner : TypeDecl) (text : String) : Option UnitReading := do
  let rows ← (text.toList.splitOn '\n').dropLast.dropPrefix? (preambleRows config)
  let (body, after) ← readBlock (classHead owner) (← readNamespace owner rows)
  return readClass config owner body after

/-- The reading that gives contributions back. -/
def Contributions.reading (config : Config) (p : Contributions) : UnitReading where
  declarations := p.declarations
  constructorBody :=
    if p.constructorParts = [] then none else some (p.constructorParts ++ [[hookCall]])
  overrideBody :=
    if p.overrideParts = [] then none else some ([baseCall config] :: p.overrideParts)
  outsideParts := p.outsideParts

namespace Contributions

variable {config : Config} {p : Contributions} {body : List (List Row)}

/-- There is a constructor exactly when there are statements for it. -/
theorem isSome_constructorBody :
    (p.reading config).constructorBody.isSome = true ↔ p.constructorParts ≠ [] := by
  by_cases h : p.constructorParts = [] <;> simp [reading, h]

/-- A constructor runs its statements and calls the hook. -/
theorem eq_of_mem_constructorBody (h : body ∈ (p.reading config).constructorBody) :
    body = p.constructorParts ++ [[hookCall]] := by
  by_cases hnone : p.constructorParts = [] <;> simp [reading, hnone] at h
  exact h.symm

/-- There is a lifecycle method exactly when there are statements for it. -/
theorem isSome_overrideBody :
    (p.reading config).overrideBody.isSome = true ↔ p.overrideParts ≠ [] := by
  by_cases h : p.overrideParts = [] <;> simp [reading, h]

/-- A lifecycle method calls the base and runs its statements. -/
theorem eq_of_mem_overrideBody (h : body ∈ (p.reading config).overrideBody) :
    body = [baseCall config] :: p.overrideParts := by
  by_cases hnone : p.overrideParts = [] <;> simp [reading, hnone] at h
  exact h.symm

end Contributions

/-- The paragraphs before the lifecycle method are not its first. -/
theorem readOverride_append {config : Config} {front : List (List Row)}
    (hfront : overrideOpening config ∉ front) {rows : List Row} {rest : List (List Row)}
    (hrows : rows.splitOn [] = overrideOpening config :: rest) :
    readOverride config (front ++ rows.splitOn []) =
      (front, (readBlock (overrideHead config) rows).map fun block => block.1.splitOn []) := by
  have hother := bne_of_not_mem hfront
  have hback : [[]].intercalate (overrideOpening config :: rest) = rows := by
    rw [← hrows, List.intercalate_splitOn]
  rw [readOverride, List.dropWhile_append_of_pos hother, List.takeWhile_append_of_pos hother, hrows,
    List.dropWhile_cons_of_neg (by simp), List.takeWhile_cons_of_neg (by simp), hback,
    List.append_nil]

/-- Without a lifecycle method there is none to read. -/
theorem readOverride_of_not_mem {config : Config} {front : List (List Row)}
    (hfront : overrideOpening config ∉ front) : readOverride config front = (front, none) := by
  have hother := bne_of_not_mem hfront
  rw [readOverride, List.dropWhile_eq_nil_iff.2 hother, List.takeWhile_eq_self_iff.2 hother]
  rfl

/-- The constructor is the paragraph before the hook. -/
theorem readConstructor_append {owner : TypeDecl} {front : List (List Row)} {rows : List Row}
    (hfront : [hookRow] ∉ front) (hrows : rows ≠ [hookRow]) :
    readConstructor owner (front ++ [rows, [hookRow]]) =
      (front, (readBlock (constructorHead owner) rows).map fun block =>
        cutAfter ['\x7d'] block.1) := by
  have hnone : [hookRow] ∉ front ++ [rows] := by simp [hfront, Ne.symm hrows]
  have hother := bne_of_not_mem hnone
  have hsplit : front ++ [rows, [hookRow]] = (front ++ [rows]) ++ [[hookRow]] := by simp
  rw [readConstructor, hsplit, List.dropWhile_append_of_pos hother,
    List.takeWhile_append_of_pos hother]
  simp

/-- Without a hook there is no constructor to read. -/
theorem readConstructor_of_not_mem {owner : TypeDecl} {front : List (List Row)}
    (hfront : [hookRow] ∉ front) : readConstructor owner front = (front, none) := by
  rw [readConstructor, List.dropWhile_eq_nil_iff.2 (bne_of_not_mem hfront)]

namespace Contributions

variable {config : Config} {owner : TypeDecl} {p : Contributions}

/-- The constructor has no empty row. -/
theorem Shaped.nil_not_mem_constructorRows (h : p.Shaped) : [] ∉ p.constructorRows owner := by
  have hbody : [] ∉ p.constructorParts.flatten ++ [hookCall] := by
    intro hmem
    rcases List.mem_append.1 hmem with hmem | hmem
    · obtain ⟨part, hpart, hrow⟩ := List.mem_flatten.1 hmem
      exact (h.constructorPart part hpart).1.nil_not_mem hrow
    · exact absurd hmem (by decide)
  rw [constructorRows, List.mem_cons, not_or]
  exact ⟨by simp [constructorHead, lineChars, Piece.chars], nil_not_mem_braced hbody⟩

/-- The constructor has more than three rows. -/
theorem length_constructorRows (p : Contributions) (owner : TypeDecl) :
    3 < (p.constructorRows owner).length := by
  simp [constructorRows, braced]

/-- The lifecycle method starts with its opening, when it has statements. -/
theorem splitOn_overrideRows (config : Config) (hne : p.overrideParts ≠ []) :
    ∃ rest, (p.overrideRows config).splitOn [] = overrideOpening config :: rest := by
  obtain ⟨part, parts, hparts⟩ := List.exists_cons_of_ne_nil hne
  have hopening : [] ∉ overrideOpening config := by
    simp [overrideOpening, overrideHead, baseCall, lineChars, Piece.chars]
  have hrows : p.overrideRows config = overrideOpening config ++
      [] :: ((part ++ parts.flatMap ([] :: ·)).map indentRow ++ [['\x7d']]) := by
    simp [overrideRows, braced, overrideOpening, hparts, indentRow]
  exact ⟨_, by rw [hrows, List.splitOn_append_cons_self_of_not_mem hopening]⟩

/-- The paragraphs of the class body. -/
theorem Shaped.paragraphs_members (h : p.Shaped) :
    paragraphs ([[]].intercalate (p.members config owner)) =
      p.declarations ++
        (if p.constructorParts = [] then [] else [p.constructorRows owner, [hookRow]]) ++
        (if p.overrideParts = [] then [] else (p.overrideRows config).splitOn []) := by
  have hrows : ∀ part ∈ p.members config owner, part ≠ [] := by
    intro part hpart
    rw [members, List.mem_append, List.mem_append] at hpart
    rcases hpart with (hpart | hpart) | hpart
    · exact (h.declaration part hpart).1.ne_nil
    · split at hpart
      · cases hpart
      · rw [List.mem_singleton.1 hpart]
        exact List.cons_ne_nil _ _
    · split at hpart
      · cases hpart
      · rw [List.mem_singleton.1 hpart]
        exact List.cons_ne_nil _ _
  have hconstructor : (p.constructorRows owner ++ [[], hookRow]).splitOn [] =
      [p.constructorRows owner, [hookRow]] := by
    rw [List.splitOn_append_cons_self_of_not_mem h.nil_not_mem_constructorRows,
      List.splitOn_eq_singleton (by decide)]
  have hdeclarations := flatMap_splitOn_of_paragraphs fun d hd => (h.declaration d hd).1
  rw [paragraphs_intercalate hrows, members, List.flatMap_append, List.flatMap_append,
    hdeclarations]
  congr 1
  · congr 1
    split
    · rfl
    · rw [List.flatMap_singleton, hconstructor]
  · split
    · rfl
    · rw [List.flatMap_singleton]

/-- The constructor is read back. -/
theorem Shaped.readConstructor_eq (h : p.Shaped) (config : Config) :
    readConstructor owner (p.declarations ++
        if p.constructorParts = [] then [] else [p.constructorRows owner, [hookRow]]) =
      (p.declarations, (p.reading config).constructorBody) := by
  have hdeclarations : [hookRow] ∉ p.declarations := fun hmem =>
    (h.declaration _ hmem).2.2 rfl
  by_cases hnone : p.constructorParts = []
  · rw [if_pos hnone, List.append_nil, readConstructor_of_not_mem hdeclarations, reading,
      if_pos hnone]
  · have hrows : p.constructorRows owner ≠ [hookRow] := by
      intro heq
      have hlength := p.length_constructorRows owner
      rw [heq] at hlength
      simp at hlength
    have hcall : ['\x7d'] ∉ [hookCall] := by decide
    have hcut := cutAfter_flatten_append (fun part hpart => (h.constructorPart part hpart).2) hcall
      (List.cons_ne_nil _ _)
    rw [if_neg hnone, readConstructor_append hdeclarations hrows, constructorRows, readBlock_block,
      reading, if_neg hnone, Option.map_some, hcut]

/-- The contributions are read back from the rows of the class and those after it. -/
theorem Shaped.readClass_members (h : p.Shaped) :
    readClass config owner ([[]].intercalate (p.members config owner))
      (p.outsideParts.flatMap ([] :: ·)) = p.reading config := by
  have hfront : overrideOpening config ∉ p.declarations ++
      if p.constructorParts = [] then [] else [p.constructorRows owner, [hookRow]] := by
    -- Nothing else in the class body is a paragraph of three rows.
    intro hmem
    rcases List.mem_append.1 hmem with hmem | hmem
    · exact (h.declaration _ hmem).2.1 rfl
    · split at hmem
      · cases hmem
      · rcases List.mem_cons.1 hmem with heq | hmem
        · have hlength := p.length_constructorRows owner
          rw [← heq] at hlength
          exact absurd hlength (by simp [overrideOpening])
        · have hlength := congrArg List.length (List.mem_singleton.1 hmem)
          cases hlength
  have hoverride : readOverride config (paragraphs ([[]].intercalate (p.members config owner))) =
      (p.declarations ++
        if p.constructorParts = [] then [] else [p.constructorRows owner, [hookRow]],
        (p.reading config).overrideBody) := by
    rw [h.paragraphs_members]
    by_cases hnone : p.overrideParts = []
    · rw [if_pos hnone, List.append_nil, readOverride_of_not_mem hfront, reading, if_pos hnone]
    · obtain ⟨rest, hrest⟩ := splitOn_overrideRows config hnone
      have hcall : [baseCall config].splitOn [] = [[baseCall config]] :=
        List.splitOn_eq_singleton (by simp [baseCall, lineChars, Piece.chars])
      have hbody := splitOn_append_flatMap [] [baseCall config] p.overrideParts
      rw [flatMap_splitOn_of_paragraphs h.overridePart, List.singleton_append, hcall,
        List.singleton_append] at hbody
      rw [if_neg hnone, readOverride_append hfront hrest, overrideRows, readBlock_block,
        Option.map_some, hbody, reading, if_neg hnone]
  have houtside : joinPairs (((p.outsideParts.flatMap ([] :: ·)).splitOn []).drop 1) =
      p.outsideParts := by
    have hsplit := splitOn_append_flatMap [] [] p.outsideParts
    rw [List.nil_append, List.splitOn_nil] at hsplit
    rw [hsplit, List.singleton_append, List.drop_one, List.tail_cons]
    refine joinPairs_flatMap_splitOn fun part hpart => ?_
    obtain ⟨first, second, heq, hfirst, hsecond⟩ := h.outsidePart part hpart
    exact ⟨first, second, heq, hfirst.nil_not_mem, hsecond.nil_not_mem⟩
  rw [readClass, hoverride]
  dsimp only
  rw [h.readConstructor_eq config, houtside]
  rfl

/-- The rows in the block of the namespace are read. -/
theorem readNamespace_spaceRows (owner : TypeDecl) (rows : List Row) :
    readNamespace owner (spaceRows owner.namespaceName? rows) = some rows := by
  unfold readNamespace spaceRows
  cases owner.namespaceName? with
  | none => rfl
  | some name =>
    dsimp only
    split
    · rfl
    · rw [readBlock_block]
      rfl

/-- The contributions are read back from the rows of the unit. -/
theorem Shaped.readUnit_unitRows (h : p.Shaped)
    (hfeed : ∀ row ∈ p.unitRows config owner, '\n' ∉ row) :
    readUnit config owner (String.ofList (Text.unlines (p.unitRows config owner))) =
      some (p.reading config) := by
  have hpreamble : (p.unitRows config owner).dropPrefix? (preambleRows config) =
      some (spaceRows owner.namespaceName? (p.classRows config owner)) :=
    List.dropPrefix?_eq_some_iff.2 ⟨_, rfl, beq_self_eq_true _⟩
  have hclass := readBlock_braced (classHead owner) ([[]].intercalate (p.members config owner))
    (p.outsideParts.flatMap ([] :: ·))
  rw [readUnit, String.toList_ofList, splitOn_unlines hfeed, List.dropLast_concat, hpreamble]
  simp only [Option.bind_eq_bind, Option.bind_some, readNamespace_spaceRows, classRows, hclass,
    h.readClass_members]
  rfl

end Contributions

end SceneWiring
