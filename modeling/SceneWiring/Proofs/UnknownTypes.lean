import SceneWiring.Proofs.Injection
import SceneWiring.Proofs.Spelling
/-!
# Values of types that are not declared

An ancestor may have members of types that no declaration stands for, such as `int` or `List<int>`. A
member of such a type takes its value from the members of the ancestor whose types have a definition of
the same name, whatever the type arguments are. So types without arguments suit only when they are
written identically, but instances of one generic type all suit each other.
-/

namespace SceneWiring

/-- What is left of a text without the blanks behind it is the front of the text. -/
theorem Text.dropBlanksRight_prefix_self (text : List Char) : dropBlanksRight text <+: text := by
  have hsuffix := List.dropWhile_suffix (l := text.reverse) isBlank
  rw [← List.reverse_prefix, List.reverse_reverse] at hsuffix
  rwa [dropBlanksRight_eq_reverse]

/-- The name of the definition is the front of the name without its root mark. -/
theorem definitionChars_prefix_name (name : List Char) :
    definitionChars name <+: dropRootMark name := by
  unfold definitionChars
  dsimp only
  split
  · have hbefore : beforeArguments (dropRootMark name) <+: dropRootMark name :=
      List.takeWhile_prefix _
    exact (Text.dropBlanksRight_prefix_self _).trans hbefore
  · exact List.prefix_rfl

namespace TypeRef

variable {s t : TypeRef}

/-- The text behind the name of the definition: the type arguments and the blanks before them. -/
def afterDefinition (type : TypeRef) : List Char :=
  (dropRootMark type.name.toList).drop (definitionChars type.name.toList).length

/-- The types are written identically, with or without the root mark. -/
def WrittenLike (s t : TypeRef) : Prop :=
  dropRootMark s.name.toList = dropRootMark t.name.toList

instance (s t : TypeRef) : Decidable (s.WrittenLike t) :=
  inferInstanceAs (Decidable (dropRootMark s.name.toList = dropRootMark t.name.toList))

/-- The name of the definition and the text behind it make up the name without its root mark. -/
theorem definitionChars_append_afterDefinition (type : TypeRef) :
    definitionChars type.name.toList ++ type.afterDefinition = dropRootMark type.name.toList :=
  List.prefix_iff_eq_append.1 (definitionChars_prefix_name _)

/-- Nothing stands behind the name of the definition of a type without arguments. -/
theorem afterDefinition_of_unapplied {type : TypeRef} (h : '<' ∉ type.name.toList) :
    type.afterDefinition = [] := by
  rw [afterDefinition, definitionChars_of_unapplied h, List.drop_length]

/-- Types are written identically when their definitions have one name and the same text stands behind
it. -/
theorem writtenLike_iff :
    s.WrittenLike t ↔
      s.definitionName = t.definitionName ∧ s.afterDefinition = t.afterDefinition := by
  constructor
  · intro hsame
    have hname := TypeRef.definitionName_congr hsame
    refine ⟨hname, ?_⟩
    unfold afterDefinition
    rw [hsame, String.ofList_injective hname]
  · rintro ⟨hname, hafter⟩
    unfold WrittenLike
    rw [← definitionChars_append_afterDefinition, ← definitionChars_append_afterDefinition,
      String.ofList_injective hname, hafter]

end TypeRef

namespace Context

variable {x : Context} {ancestor : TypeDecl}

/-- A value suits a type that is not declared when its type is not declared either and the definitions
have one name. -/
theorem suits_iff_of_unknown {source target : TypeRef} (h : x.compilation.resolve target = none) :
    x.Suits source target ↔
      x.compilation.resolve source = none ∧ source.definitionName = target.definitionName := by
  constructor
  · rintro (⟨-, ht, -⟩ | ⟨hs, -, hname⟩)
    · cases h.symm.trans ht
    · exact ⟨hs, hname⟩
  · rintro ⟨hs, hname⟩
    exact .unknown hs h hname

/-- The members of an ancestor that are not made by the compiler and whose types have the definition of
a type, without being declared. -/
def likelySources (x : Context) (ancestor : TypeDecl) (type : TypeRef) : List Member :=
  (ancestor.properties ++ ancestor.fields).filter fun s =>
    s.implicit = false ∧ x.compilation.resolve s.type = none ∧
      s.type.definitionName = type.definitionName

/-- The members of an ancestor that are not made by the compiler and whose types are written like a
type. -/
def identicalSources (ancestor : TypeDecl) (type : TypeRef) : List Member :=
  (ancestor.properties ++ ancestor.fields).filter fun s =>
    s.implicit = false ∧ s.type.WrittenLike type

/-- A member is given a value when just one member of the ancestor can be taken. -/
theorem takeOnly_eq_ok_iff {m : Member} {name : Option String} {found : List Member}
    {request : Request} :
    takeOnly m name ancestor found = .ok request ↔
      ∃ s, found = [s] ∧ request = { strategy := fromAncestor m name ancestor (some s.name) } := by
  constructor
  · intro hgiven
    match found with
    | [] => cases hgiven
    | [s] => exact ⟨s, rfl, (Except.ok.inj hgiven).symm⟩
    | _ :: _ :: _ => cases hgiven
  · rintro ⟨s, rfl, rfl⟩
    rfl

/-- A member of a type that is not declared takes its value from the only member of the ancestor whose
type has its definition. -/
theorem judgeInject_of_unknown {m : Member} {type : Option String}
    (h : x.ancestor? m type = some ancestor) (hunknown : x.compilation.resolve m.type = none)
    (name : Option String) :
    x.judgeInject m type name = takeOnly m name ancestor (x.likelySources ancestor m.type) := by
  have hother : x.compilation.resolve m.type ≠ some ancestor := by
    rw [hunknown]
    exact (Option.some_ne_none ancestor).symm
  rw [judgeInject_of_other h hother, sources_eq_filter]
  refine congrArg _ (List.filter_congr fun s _ => ?_)
  rw [decide_eq_decide, suits_iff_of_unknown hunknown]

/-- Of the members whose types have the definition of an undeclared type, those with the same text
behind it are written like the type. -/
theorem identicalSources_eq_filter {type : TypeRef} (hunknown : x.compilation.resolve type = none) :
    identicalSources ancestor type =
      (x.likelySources ancestor type).filter fun s =>
        s.type.afterDefinition = type.afterDefinition := by
  unfold identicalSources likelySources
  rw [List.filter_filter]
  refine List.filter_congr fun s _ => ?_
  rw [← Bool.decide_and, decide_eq_decide]
  constructor
  · rintro ⟨himplicit, hsame⟩
    obtain ⟨hname, hafter⟩ := TypeRef.writtenLike_iff.1 hsame
    exact ⟨hafter, himplicit, (x.compilation.resolve_congr hsame).trans hunknown, hname⟩
  · rintro ⟨hafter, himplicit, -, hname⟩
    exact ⟨himplicit, TypeRef.writtenLike_iff.2 ⟨hname, hafter⟩⟩

end Context

/-- A member of an undeclared type takes its value from the only member of the ancestor whose type is
not declared either and has a definition of the same name; none and several are errors. The type of
the member taken is written identically exactly when the same text stands behind the name of the
definition. So the members that count are those of types written identically exactly when this holds of
all that count, and always when no type arguments are written at all. -/
theorem unknown_types_match_by_definition {x : Context} {m : Member} {type : Option String}
    {ancestor : TypeDecl} (hancestor : x.ancestor? m type = some ancestor)
    (hunknown : x.compilation.resolve m.type = none) (name : Option String) :
    x.judgeInject m type name =
        Context.takeOnly m name ancestor (x.likelySources ancestor m.type) ∧
    (∀ request, x.judgeInject m type name = .ok request →
      ∃ s, x.likelySources ancestor m.type = [s] ∧
        request = { strategy := Context.fromAncestor m name ancestor (some s.name) } ∧
        (s.type.WrittenLike m.type ↔ s.type.afterDefinition = m.type.afterDefinition)) ∧
    (x.likelySources ancestor m.type = Context.identicalSources ancestor m.type ↔
      ∀ s ∈ x.likelySources ancestor m.type, s.type.afterDefinition = m.type.afterDefinition) ∧
    ('<' ∉ m.type.name.toList →
      (∀ s ∈ ancestor.properties ++ ancestor.fields, '<' ∉ s.type.name.toList) →
      x.judgeInject m type name =
        Context.takeOnly m name ancestor (Context.identicalSources ancestor m.type)) := by
  have hjudge := Context.judgeInject_of_unknown hancestor hunknown name
  have hidentical : x.likelySources ancestor m.type = Context.identicalSources ancestor m.type ↔
      ∀ s ∈ x.likelySources ancestor m.type, s.type.afterDefinition = m.type.afterDefinition := by
    rw [Context.identicalSources_eq_filter hunknown, eq_comm, List.filter_eq_self]
    simp only [decide_eq_true_eq]
  refine ⟨hjudge, fun request hgiven => ?_, hidentical, fun hplain hplains => ?_⟩
  · rw [hjudge, Context.takeOnly_eq_ok_iff] at hgiven
    obtain ⟨s, honly, hrequest⟩ := hgiven
    have hs : s ∈ x.likelySources ancestor m.type := honly ▸ List.mem_singleton_self s
    obtain ⟨-, -, hname⟩ := of_decide_eq_true (List.mem_filter.1 hs).2
    refine ⟨s, honly, hrequest, ?_⟩
    rw [TypeRef.writtenLike_iff]
    exact and_iff_right hname
  · rw [hjudge, hidentical.2 fun s hs => ?_]
    rw [TypeRef.afterDefinition_of_unapplied (hplains s (List.mem_filter.1 hs).1),
      TypeRef.afterDefinition_of_unapplied hplain]

/-- The annotation of a member that takes its value from an ancestor of that type. -/
def injectFrom (type : String) : Attribute := { name := "InjectAncestorValue", args := [.type type] }

/-- A node, a resource, a class with scores and a title, a class with scores and names, and a class
whose members take names from the first of the two, names from the second and a title from the
first. -/
def storeTypes : List TypeDecl :=
  [{ name := "Node", namespaceName? := some "Godot" },
   { name := "Resource", namespaceName? := some "Godot" },
   { name := "Score", namespaceName? := some "Game", base? := some ⟨"Godot.Node", false⟩,
     fields :=
      [{ name := "Points", type := ⟨"List<int>", false⟩ },
       { name := "Title", type := ⟨"string", false⟩ }] },
   { name := "Table", namespaceName? := some "Game", base? := some ⟨"Godot.Node", false⟩,
     fields :=
      [{ name := "Points", type := ⟨"List<int>", false⟩ },
       { name := "Names", type := ⟨"List<string>", false⟩ }] },
   { name := "Board", namespaceName? := some "Game", base? := some ⟨"Godot.Node", false⟩,
     fields :=
      [{ name := "_best", type := ⟨"List<string>", false⟩, attributes := [injectFrom "Game.Score"] },
       { name := "_names", type := ⟨"List<string>", false⟩, attributes := [injectFrom "Game.Table"] },
       { name := "_title", type := ⟨"string", false⟩, attributes := [injectFrom "Game.Score"] }] }]

/-- The same types under the default settings. -/
def storeContext : Context where
  compilation := ⟨storeTypes, [], keyIndex storeTypes, nameIndex storeTypes, by decide +kernel, rfl,
    rfl⟩
  config := {}
  host := ⟨storeTypes[0], storeTypes[1], by decide +kernel, by decide +kernel⟩

/-- The title is taken from the only member of type `string`. -/
theorem title_matches_by_definition :
    let title := storeTypes[4].fields[2]
    storeContext.ancestor? title (some "Game.Score") = some storeTypes[2] ∧
      storeContext.compilation.resolve title.type = none ∧
      storeContext.judgeInject title (some "Game.Score") none =
        .ok { strategy := Context.fromAncestor title none storeTypes[2] (some "Title") } := by
  intro title
  have hancestor : storeContext.ancestor? title (some "Game.Score") = some storeTypes[2] := by
    decide +kernel
  have hunknown : storeContext.compilation.resolve title.type = none := by decide +kernel
  obtain ⟨hjudge, -⟩ := unknown_types_match_by_definition hancestor hunknown none
  have hsources : storeContext.likelySources storeTypes[2] title.type =
      [{ name := "Title", type := ⟨"string", false⟩ }] := by
    decide +kernel
  rw [hsources] at hjudge
  exact ⟨hancestor, hunknown, hjudge⟩

/-- A list of integers is taken for a list of strings, and next to a list of strings it makes the
choice ambiguous. -/
theorem integers_taken_for_strings :
    let best := storeTypes[4].fields[0]
    let points := storeTypes[2].fields[0]
    storeContext.compilation.resolve best.type = none ∧
      storeContext.compilation.resolve points.type = none ∧
      ¬points.type.WrittenLike best.type ∧
      (storeContext.resolveClass storeTypes[4]).additions.map (·.strategy) =
        [Context.fromAncestor best none storeTypes[2] (some "Points"),
         Context.fromAncestor storeTypes[4].fields[2] none storeTypes[2] (some "Title")] ∧
      (storeContext.resolveClass storeTypes[4]).diagnostics.map (·.message) =
        ["Multiple members of type \"List<string>\" found in injection source \"Game.Table\" for " ++
          "_names, but expected exactly one. Found: Points, Names"] := by
  decide +kernel

end SceneWiring
