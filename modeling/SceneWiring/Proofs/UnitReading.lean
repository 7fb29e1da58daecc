import SceneWiring.ClassUnit
import SceneWiring.Proofs.Grouping
import SceneWiring.Proofs.UnitRows
/-!
# Units that are read back

When no text that is written as code breaks a line, the rows of a unit are those put together from
what its additions contribute, so the reader gets every statement back: the declarations and what
goes after the class in the order of discovery, the statements of the constructor and of the
lifecycle method in ascending rank.
-/

namespace SceneWiring

/-- No text that is written as code in the unit of a class breaks a line. -/
structure ClassUnit.Unbroken (config : Config) (owner : TypeDecl) (u : ClassUnit) : Prop where
  /-- The first line of the unit is one line. -/
  header : '\n' ∉ config.header.toList
  /-- So is each namespace that is opened. -/
  usings : ∀ name ∈ config.usings, '\n' ∉ name.toList
  /-- So is the name of the lifecycle method. -/
  lifecycleMethod : '\n' ∉ config.lifecycleMethod.toList
  /-- So is the namespace of the class. -/
  namespaceName : ∀ name ∈ owner.namespaceName?, '\n' ∉ name.toList
  /-- So is its name. -/
  name : '\n' ∉ owner.name.toList
  /-- So is the name of each type parameter. -/
  typeParameters : ∀ p ∈ owner.typeParameters, '\n' ∉ p.name.toList
  /-- So are the texts of each strategy. -/
  strategy : ∀ a ∈ u.additions, a.strategy.Unbroken

namespace ClassUnit

variable {config : Config} {owner : TypeDecl} {u : ClassUnit}

/-- What the additions of a unit contribute. -/
def contributions (u : ClassUnit) : Contributions where
  declarations := u.additions.filterMap fun a => a.strategy.declaration.map fragmentRows
  constructorParts := u.ordered.filterMap fun a => a.strategy.constructorPart.map fragmentRows
  overrideParts := u.ordered.filterMap fun a => a.strategy.lifecycle.map fragmentRows
  outsideParts := u.additions.filterMap fun a => a.strategy.outside.map fragmentRows

/-- What a part of the additions contributes is contributed by one of them. -/
theorem exists_of_mem_filterMap {additions : List Addition} {part : Strategy → Option (List Code)}
    {rows : List Row}
    (h : rows ∈ additions.filterMap fun a => (part a.strategy).map fragmentRows) :
    ∃ a ∈ additions, ∃ f, part a.strategy = some f ∧ fragmentRows f = rows := by
  obtain ⟨a, ha, hrows⟩ := List.mem_filterMap.1 h
  obtain ⟨f, hf, rfl⟩ := Option.map_eq_some_iff.1 hrows
  exact ⟨a, ha, f, hf, rfl⟩

/-- Contributions of unbroken strategies have the shapes by which they are told apart. -/
theorem shaped_contributions (h : ∀ a ∈ u.additions, a.strategy.Unbroken) :
    u.contributions.Shaped := by
  have hordered : ∀ a ∈ u.ordered, a.strategy.Unbroken := fun a ha =>
    h a ((ordered_perm u).mem_iff.1 ha)
  refine ⟨fun rows hrows => ?_, fun rows hrows => ?_, fun rows hrows => ?_, fun rows hrows => ?_⟩
  · obtain ⟨a, ha, f, hf, rfl⟩ := exists_of_mem_filterMap hrows
    exact Strategy.declaration_rows (h a ha) hf
  · obtain ⟨a, ha, f, hf, rfl⟩ := exists_of_mem_filterMap hrows
    exact Strategy.constructorPart_rows (hordered a ha) hf
  · obtain ⟨a, ha, f, hf, rfl⟩ := exists_of_mem_filterMap hrows
    exact Strategy.lifecycle_rows (hordered a ha) hf
  · obtain ⟨a, ha, f, hf, rfl⟩ := exists_of_mem_filterMap hrows
    exact Strategy.outside_rows (h a ha) hf

/-- The rows of fragments are taken from what is there. -/
theorem map_fragmentRows_filterMap (additions : List Addition)
    (part : Strategy → Option (List Code)) :
    (additions.filterMap fun a => part a.strategy).map fragmentRows =
      additions.filterMap fun a => (part a.strategy).map fragmentRows :=
  List.map_filterMap

/-- Parts with a blank line between them are their rows with an empty row between them. -/
theorem bodyRows_intercalate (parts : List (List Code)) :
    bodyRows ([.blank].intercalate parts) = [[]].intercalate (parts.map bodyRows) := by
  induction parts with
  | nil => rfl
  | cons part parts ih =>
    cases parts with
    | nil => simp
    | cons next parts =>
      rw [List.intercalate_cons_cons, bodyRows_append, bodyRows_append, ih, List.map_cons,
        List.map_cons, List.map_cons, List.intercalate_cons_cons]
      rfl

/-- Fragments with a blank line before each are their rows with an empty row before each. -/
theorem bodyRows_blank_fragments (fragments : List (List Code)) :
    bodyRows (fragments.flatMap fun f => [.blank, .fragment f]) =
      (fragments.map fragmentRows).flatMap ([] :: ·) := by
  simp [bodyRows_eq_flatMap, List.flatMap_assoc, List.flatMap_map, Code.rows]

/-- Fragments one after the other are their rows one after the other. -/
theorem bodyRows_fragments (fragments : List (List Code)) :
    bodyRows (fragments.map .fragment) = (fragments.map fragmentRows).flatten := by
  rw [bodyRows_eq_flatMap, List.flatMap_map, List.flatMap_def]
  simp only [Code.rows]

/-- The rows of the sections of the class body. -/
theorem map_bodyRows_sections (u : ClassUnit) (config : Config) (owner : TypeDecl) :
    (u.sections config owner).map bodyRows = u.contributions.members config owner := by
  have hdeclarations (fs : List (List Code)) :
      (fs.map fun f => [Code.fragment f]).map bodyRows = fs.map fragmentRows := by
    simp [bodyRows, Code.rows]
  have hconstructor (fs : List (List Code)) :
      (constructorSection owner fs).toList.map bodyRows =
        if fs.map fragmentRows = [] then []
        else [constructorHead owner :: braced ((fs.map fragmentRows).flatten ++ [hookCall]) ++
          [[], hookRow]] := by
    cases fs with
    | nil => rfl
    | cons f fs =>
      rw [if_neg (by simp)]
      simp only [constructorSection, List.isEmpty_cons, Bool.false_eq_true, if_false,
        Option.toList_some, List.map_singleton, bodyRows, Code.rows, bodyRows_append,
        bodyRows_fragments, List.append_nil]
      rfl
  have hoverride (fs : List (List Code)) :
      (lifecycleSection config fs).toList.map bodyRows =
        if fs.map fragmentRows = [] then []
        else [overrideHead config :: braced (baseCall config ::
          (fs.map fragmentRows).flatMap ([] :: ·))] := by
    cases fs with
    | nil => rfl
    | cons f fs =>
      rw [if_neg (by simp)]
      simp only [lifecycleSection, List.isEmpty_cons, Bool.false_eq_true, if_false,
        Option.toList_some, List.map_singleton, bodyRows, Code.rows, bodyRows_blank_fragments,
        List.append_nil]
      rfl
  rw [sections, List.map_append, List.map_append, hdeclarations, hconstructor, hoverride,
    map_fragmentRows_filterMap, map_fragmentRows_filterMap, map_fragmentRows_filterMap]
  rfl

/-- The rows of the class and of what comes after it. -/
theorem bodyRows_classCode (u : ClassUnit) (config : Config) (owner : TypeDecl) :
    bodyRows (u.classCode config owner) = u.contributions.classRows config owner := by
  rw [classCode, bodyRows_append, bodyRows_blank_fragments, map_fragmentRows_filterMap]
  simp only [bodyRows, Code.rows, bodyRows_intercalate, map_bodyRows_sections, List.append_nil]
  rfl

/-- The rows of the unit are put together from what its additions contribute. -/
theorem bodyRows_code (u : ClassUnit) (config : Config) (owner : TypeDecl) :
    bodyRows (u.code config owner) = u.contributions.unitRows config owner := by
  have hheader : bodyRows (headerLine config.header) =
      if config.header = "" then [] else [config.header.toList] := by
    unfold headerLine
    split
    · rfl
    · simp [bodyRows, Code.rows, lineChars, Piece.chars]
  have husings : bodyRows (config.usings.map fun (name : String) => .line ["using ", name, ";"]) =
      config.usings.map fun (name : String) => lineChars ["using ", name, ";"] := by
    rw [bodyRows_eq_flatMap, List.flatMap_map, List.map_eq_flatMap]
    simp only [Code.rows]
  have hscope : Code.rows (.scope owner.namespaceName? (u.classCode config owner)) =
      spaceRows owner.namespaceName? (u.contributions.classRows config owner) := by
    cases owner.namespaceName? with
    | none =>
      rw [Code.rows, bodyRows_classCode]
      rfl
    | some name =>
      rw [Code.rows, bodyRows_classCode]
      rfl
  have hrest : bodyRows [.blank, .scope owner.namespaceName? (u.classCode config owner)] =
      [] :: Code.rows (.scope owner.namespaceName? (u.classCode config owner)) := by
    rw [bodyRows, bodyRows, bodyRows, List.append_nil]
    rfl
  rw [code, bodyRows_append, bodyRows_append, hheader, husings, hrest, hscope,
    Contributions.unitRows, preambleRows, List.append_assoc _ [[]]]
  rfl

/-- No row of what additions contribute breaks a line: the rows are lines of fragments. -/
theorem feed_not_mem_of_mem_filterMap {additions : List Addition}
    {part : Strategy → Option (List Code)} :
    ∀ rows ∈ additions.filterMap fun a => (part a.strategy).map fragmentRows,
      ∀ row ∈ rows, '\n' ∉ row := by
  intro rows hrows row hrow
  obtain ⟨a, -, f, -, rfl⟩ := exists_of_mem_filterMap hrows
  exact Text.feed_not_mem_of_mem_linesFrom List.not_mem_nil hrow

/-- Parts that hold no line feed hold none with an empty row before each. -/
theorem feed_not_mem_flatMap {parts : List (List Row)}
    (h : ∀ part ∈ parts, ∀ row ∈ part, '\n' ∉ row) :
    ∀ row ∈ parts.flatMap ([] :: ·), '\n' ∉ row := by
  intro row hrow
  obtain ⟨part, hpart, hmem⟩ := List.mem_flatMap.1 hrow
  rcases List.mem_cons.1 hmem with rfl | hmem
  · exact List.not_mem_nil
  · exact h part hpart row hmem

/-- The head of the class breaks no line. -/
theorem Unbroken.classHead (h : u.Unbroken config owner) : '\n' ∉ classHead owner := by
  have hparameters : '\n' ∉ (", ".intercalate (owner.typeParameters.map (·.name))).toList := by
    rw [String.toList_intercalate]
    intro hmem
    rcases mem_of_mem_intercalate hmem with hcomma | ⟨text, htext, hfeed⟩
    · exact absurd hcomma (by decide)
    · rw [List.map_map] at htext
      obtain ⟨p, hp, rfl⟩ := List.mem_map.1 htext
      exact h.typeParameters p hp hfeed
  have hdeclared : '\n' ∉ owner.declaredName.toList := by
    unfold TypeDecl.declaredName
    split
    · exact h.name
    · simpa [h.name] using hparameters
  simp [SceneWiring.classHead, lineChars, Piece.chars, hdeclared]

/-- No row in the class body of an unbroken unit breaks a line. -/
theorem Unbroken.members (h : u.Unbroken config owner) :
    ∀ rows ∈ u.contributions.members config owner, ∀ row ∈ rows, '\n' ∉ row := by
  have hhead : '\n' ∉ constructorHead owner := by
    simp [constructorHead, lineChars, Piece.chars, h.name]
  have hoverride : '\n' ∉ overrideHead config := by
    simp [overrideHead, lineChars, Piece.chars, h.lifecycleMethod]
  have hbase : '\n' ∉ baseCall config := by
    simp [baseCall, lineChars, Piece.chars, h.lifecycleMethod]
  have hconstructor : ∀ row ∈ u.contributions.constructorRows owner ++ [[], hookRow],
      '\n' ∉ row := by
    have hbody : ∀ row ∈ u.contributions.constructorParts.flatten ++ [hookCall], '\n' ∉ row := by
      rw [List.forall_mem_append, List.forall_mem_singleton]
      refine ⟨fun row hrow => ?_, by decide⟩
      obtain ⟨part, hpart, hmem⟩ := List.mem_flatten.1 hrow
      exact feed_not_mem_of_mem_filterMap part hpart row hmem
    rw [List.forall_mem_append, Contributions.constructorRows, List.forall_mem_cons]
    exact ⟨⟨hhead, feed_not_mem_braced hbody⟩, by decide⟩
  have hlifecycle : ∀ row ∈ u.contributions.overrideRows config, '\n' ∉ row := by
    rw [Contributions.overrideRows, List.forall_mem_cons]
    refine ⟨hoverride, feed_not_mem_braced (List.forall_mem_cons.2 ⟨hbase, ?_⟩)⟩
    exact feed_not_mem_flatMap feed_not_mem_of_mem_filterMap
  rw [Contributions.members, List.forall_mem_append, List.forall_mem_append]
  refine ⟨⟨feed_not_mem_of_mem_filterMap, ?_⟩, ?_⟩
  · split
    · exact List.forall_mem_nil _
    · rw [List.forall_mem_singleton]
      exact hconstructor
  · split
    · exact List.forall_mem_nil _
    · rw [List.forall_mem_singleton]
      exact hlifecycle

/-- No row of an unbroken unit breaks a line. -/
theorem Unbroken.feed_not_mem (h : u.Unbroken config owner) :
    ∀ row ∈ u.contributions.unitRows config owner, '\n' ∉ row := by
  have hbody : ∀ row ∈ [[]].intercalate (u.contributions.members config owner), '\n' ∉ row := by
    intro row hrow
    rcases mem_of_mem_intercalate hrow with hempty | ⟨rows, hrows, hmem⟩
    · rw [List.mem_singleton.1 hempty]
      exact List.not_mem_nil
    · exact h.members rows hrows row hmem
  have hclass : ∀ row ∈ u.contributions.classRows config owner, '\n' ∉ row := by
    rw [Contributions.classRows, List.forall_mem_cons, List.forall_mem_append]
    exact ⟨h.classHead, feed_not_mem_braced hbody,
      feed_not_mem_flatMap feed_not_mem_of_mem_filterMap⟩
  have hpreamble : ∀ row ∈ preambleRows config, '\n' ∉ row := by
    rw [preambleRows, List.forall_mem_append, List.forall_mem_append, List.forall_mem_map]
    refine ⟨⟨?_, fun name hname => ?_⟩, by decide⟩
    · split
      · exact List.forall_mem_nil _
      · rw [List.forall_mem_singleton]
        exact h.header
    · simp [lineChars, Piece.chars, h.usings name hname]
  rw [Contributions.unitRows, List.forall_mem_append]
  refine ⟨hpreamble, ?_⟩
  unfold spaceRows
  cases hspace : owner.namespaceName? with
  | none => exact hclass
  | some name =>
    dsimp only
    split
    · exact hclass
    · have hname := h.namespaceName name hspace
      rw [List.forall_mem_cons]
      refine ⟨?_, feed_not_mem_braced hclass⟩
      simp [namespaceHead, lineChars, Piece.chars, hname]

/-- The contributions of an unbroken unit are read back from its text. -/
theorem Unbroken.readUnit_render (h : u.Unbroken config owner) :
    readUnit config owner (u.render config owner).text =
      some (u.contributions.reading config) := by
  rw [render, renderCode, bodyChars_zero, bodyRows_code]
  exact (shaped_contributions h.strategy).readUnit_unitRows h.feed_not_mem

/-- There is a statement of a kind exactly when an addition has one. -/
theorem filterMap_ordered_ne_nil_iff (u : ClassUnit) (part : Strategy → Option (List Code)) :
    (u.ordered.filterMap fun a => (part a.strategy).map fragmentRows) ≠ [] ↔
      ∃ a ∈ u.additions, (part a.strategy).isSome = true := by
  rw [ne_eq, List.filterMap_eq_nil_iff]
  simp [(ordered_perm u).mem_iff, Option.isSome_iff_ne_none]

/-- The statements of a unit are read back from its text, none lost, repeated or moved. There is a
lifecycle method exactly when an addition has a lifecycle statement; it calls the base and then runs
these statements in ascending rank, equal ranks in the order of the additions. There are a
constructor and a hook exactly when an addition has a constructor statement; the constructor runs
these statements in the same order and then the hook. The declarations stand before both and the
rest after the class, in the order of the additions. -/
theorem statements_read_back (h : u.Unbroken config owner) :
    ∃ (r : UnitReading) (sorted : List Addition),
      readUnit config owner (u.render config owner).text = some r ∧
      (sorted.Perm u.additions ∧ (sorted.Pairwise fun a b => a.rank ≤ b.rank) ∧
        ∀ k, (sorted.filter fun a => a.rank = k) = u.additions.filter fun a => a.rank = k) ∧
      r.declarations = u.additions.filterMap
        (fun a => a.strategy.declaration.map fragmentRows) ∧
      (r.constructorBody.isSome = true ↔
        ∃ a ∈ u.additions, a.strategy.constructorPart.isSome = true) ∧
      (∀ body ∈ r.constructorBody, body = sorted.filterMap
        (fun a => a.strategy.constructorPart.map fragmentRows) ++ [[hookCall]]) ∧
      (r.overrideBody.isSome = true ↔ ∃ a ∈ u.additions, a.strategy.lifecycle.isSome = true) ∧
      (∀ body ∈ r.overrideBody, body = [baseCall config] :: sorted.filterMap
        (fun a => a.strategy.lifecycle.map fragmentRows)) ∧
      r.outsideParts = u.additions.filterMap (fun a => a.strategy.outside.map fragmentRows) := by
  have hconstructor := filterMap_ordered_ne_nil_iff u Strategy.constructorPart
  have hlifecycle := filterMap_ordered_ne_nil_iff u Strategy.lifecycle
  exact ⟨_, u.ordered, h.readUnit_render,
    ⟨ordered_perm u, pairwise_ordered u, filter_ordered u⟩, rfl,
    Contributions.isSome_constructorBody.trans hconstructor,
    fun _ => Contributions.eq_of_mem_constructorBody,
    Contributions.isSome_overrideBody.trans hlifecycle,
    fun _ => Contributions.eq_of_mem_overrideBody, rfl⟩

/-- Load the icon of the hero. -/
def loadIcon : Addition :=
  ⟨2, 5, 0, .loadResource
    ⟨"_icon", "global::Godot.Resource", "Icon", some "res://hero\n.png", false, false⟩
    "Engine.EditorHint"⟩

/-- Open the hero. -/
def openHero : Addition := ⟨2, 0, 1, .callMethod "Open"⟩

/-- List the weapons of the hero. -/
def listWeapons : Addition :=
  ⟨2, -1, 2, .selectorEnum "global::Game.Hero" "WeaponKey" ["Sword", "Shield"]⟩

/-- Get the sword of the hero. -/
def getSword : Addition :=
  ⟨2, -1, 3, .getNode ⟨"_sword", "global::Godot.Node", "Sword", some "Arm/Sword", true, false⟩ none⟩

/-- The unit of the hero is read back: its lifecycle method gets the sword, opens, and loads the
icon last, though the icon was discovered first. -/
theorem hero_reads_back :
    let hero : TypeDecl := { name := "Hero", namespaceName? := some "Game" }
    let u : ClassUnit := ⟨2, [loadIcon, openHero, listWeapons, getSword]⟩
    u.Unbroken {} hero ∧
      ∃ r, readUnit {} hero (u.render {} hero).text = some r ∧ r.constructorBody.isSome = true ∧
        r.declarations.length = 3 ∧ r.outsideParts.length = 1 ∧
        r.overrideBody = some ([baseCall {}] :: [getSword, openHero, loadIcon].filterMap
          fun a => a.strategy.lifecycle.map fragmentRows) := by
  intro hero u
  have hunbroken : u.Unbroken {} hero :=
    ⟨by decide, by decide, by decide, by decide, by decide, by decide, by decide +kernel⟩
  obtain ⟨r, sorted, hr, ⟨hperm, hascending, -⟩, hdeclarations, hconstructor, -, hoverride, hcalls,
    houtside⟩ := statements_read_back hunbroken
  have hdistinct : u.additions.Pairwise fun a b => a.rank ≠ b.rank := by decide
  have hsorted : sorted = [listWeapons, getSword, openHero, loadIcon] := by
    have hsort : sortBy Addition.orderLe u.additions =
        [listWeapons, getSword, openHero, loadIcon] := by decide
    rw [← hsort]
    exact (eq_sortBy_iff Addition.orderLe_iff hdistinct sorted).2 ⟨hperm, hascending⟩
  obtain ⟨body, hbody⟩ := Option.isSome_iff_exists.1
    (hoverride.2 ⟨openHero, by decide, rfl⟩)
  refine ⟨hunbroken, r, hr, hconstructor.2 ⟨loadIcon, by decide, rfl⟩, ?_, ?_, ?_⟩
  · rw [hdeclarations]
    rfl
  · rw [houtside]
    rfl
  · rw [hbody, hcalls body hbody, hsorted]
    rfl

end ClassUnit

end SceneWiring
