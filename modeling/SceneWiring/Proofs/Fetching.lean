import SceneWiring.Proofs.Companions
import SceneWiring.Proofs.Reachability
/-!
# How values are fetched

The strategy for a member follows from the type hierarchy alone. A written type counts as a node
when one of the declared types that stand for it reaches the node type of the settings, and likewise
as a resource. A property to read settles the matter before the hierarchy is asked.
-/

namespace SceneWiring

namespace Cause

/-- A type that is neither node nor resource is an error about the member. -/
theorem isErrorAbout_unsupportedType (m : Member) (type node resource : String) :
    ((unsupportedType m.name type node resource).diagnosticAt m.location).IsErrorAbout
      "ORG0002" m := by
  refine (unsupportedType m.name type node resource).isErrorAbout_of_begins rfl ?_
  change m.name.toList <+: (m.name ++ " is not a supported type: " ++ type ++ ". Expected a " ++
    node ++ " or " ++ resource ++ " subclass.").toList
  simp only [String.toList_append, List.append_assoc, List.prefix_append]

/-- A type that is both node and resource is an error about the member. -/
theorem isErrorAbout_ambiguousType (m : Member) (type node resource : String) :
    ((ambiguousType m.name type node resource).diagnosticAt m.location).IsErrorAbout
      "ORG0003" m := by
  refine (ambiguousType m.name type node resource).isErrorAbout_of_begins rfl ?_
  change m.name.toList <+: (m.name ++ " has type " ++ type ++ " which is both a " ++ node ++
    " and a " ++ resource ++ "; can't pick a fetch strategy.").toList
  simp only [String.toList_append, List.append_assoc, List.prefix_append]

/-- A type that is no node is an error about the member. -/
theorem isErrorAbout_findNeedsNode (m : Member) (type node : String) :
    ((findNeedsNode m.name type node).diagnosticAt m.location).IsErrorAbout "ORG0008" m := by
  refine (findNeedsNode m.name type node).isErrorAbout_of_begins rfl ?_
  change m.name.toList <+: (m.name ++ " is not a supported type for [OnReadyFind]: " ++ type ++
    ". Expected a " ++ node ++ " subclass, or set Property.").toList
  simp only [String.toList_append, List.append_assoc, List.prefix_append]

end Cause

/-- A fetched value is read through a property exactly when the named argument for it is a text that
is not empty. -/
theorem Attribute.property_fetchOptions_eq_some_iff (a : Attribute) (p : String) :
    a.fetchOptions.property = some p ↔ a.namedText? "Property" = some p ∧ p ≠ "" := by
  rw [fetchOptions_eq, Option.bind_eq_some_iff]
  constructor
  · intro hgiven
    rcases hgiven with ⟨q, hq, hne⟩
    unfold nonEmpty at hne
    split at hne
    · cases hne
    · rename_i hempty
      cases hne
      exact ⟨hq, hempty⟩
  · intro hgiven
    rcases hgiven with ⟨hp, hempty⟩
    exact ⟨p, hp, if_neg hempty⟩

namespace Context

/-- A declared type stands for a written type inside a class: it is denoted by a constraint of the
type parameter that is written, or, when no type parameter is, by the written type itself. -/
inductive Candidate (x : Context) (owner : TypeDecl) (type : TypeRef) (d : TypeDecl) : Prop
  | constraint {p : TypeParameter} {bound : TypeRef}
      (parameter : owner.typeParameter? type.definitionName = some p)
      (bound_mem : bound ∈ p.constraints) (denotes : x.compilation.resolve bound = some d)
  | itself (noParameter : ∀ p ∈ owner.typeParameters, p.name ≠ type.definitionName)
      (denotes : x.compilation.resolve type = some d)

/-- The candidates listed for a written type are those that stand for it. -/
theorem mem_candidates_iff (x : Context) (owner : TypeDecl) (type : TypeRef) (d : TypeDecl) :
    d ∈ x.candidates owner type ↔ x.Candidate owner type d := by
  unfold candidates
  cases hparameter : owner.typeParameter? type.definitionName with
  | some p =>
    rw [List.mem_filterMap]
    constructor
    · intro hgiven
      rcases hgiven with ⟨bound, hbound, hd⟩
      exact .constraint hparameter hbound hd
    · intro hgiven
      rcases hgiven with ⟨hp, hbound, hd⟩ | ⟨hnone, -⟩
      · rw [hparameter] at hp
        cases hp
        exact ⟨_, hbound, hd⟩
      · have hname : p.name = type.definitionName := by simpa using List.find?_some hparameter
        exact absurd hname (hnone p (List.mem_of_find?_eq_some hparameter))
  | none =>
    rw [Option.mem_toList]
    constructor
    · intro hd
      refine .itself (fun p hp => ?_) hd
      simpa using List.find?_eq_none.1 hparameter p hp
    · intro hgiven
      rcases hgiven with ⟨hp, -, -⟩ | ⟨-, hd⟩
      · rw [hparameter] at hp
        cases hp
      · exact hd

/-- A candidate is a declared type. -/
theorem Candidate.mem {x : Context} {owner : TypeDecl} {type : TypeRef} {d : TypeDecl}
    (h : x.Candidate owner type d) : d ∈ x.compilation.types := by
  cases h with
  | constraint _ _ denotes => exact Compilation.mem_of_lookup denotes
  | itself _ denotes => exact Compilation.mem_of_lookup denotes

/-- Some declared type that stands for the written type reaches the root. -/
def Capable (x : Context) (owner : TypeDecl) (type : TypeRef) (root : TypeDecl) : Prop :=
  ∃ d, x.Candidate owner type d ∧ x.compilation.Reaches d root

/-- The search over the candidates decides whether one of them reaches a declared root. -/
theorem any_derivesFrom_iff_capable (x : Context) (owner : TypeDecl) (type : TypeRef)
    {root : TypeDecl} (hroot : root ∈ x.compilation.types) :
    (x.candidates owner type).any (x.compilation.derivesFrom · root) = true ↔
      x.Capable owner type root := by
  rw [List.any_eq_true]
  constructor
  · intro hgiven
    rcases hgiven with ⟨d, hd, hreach⟩
    have hcandidate := (x.mem_candidates_iff owner type d).1 hd
    exact ⟨d, hcandidate, (Compilation.derivesFrom_iff_reaches hcandidate.mem hroot).1 hreach⟩
  · intro hgiven
    rcases hgiven with ⟨d, hcandidate, hreach⟩
    exact ⟨d, (x.mem_candidates_iff owner type d).2 hcandidate,
      (Compilation.derivesFrom_iff_reaches hcandidate.mem hroot).2 hreach⟩

/-- A written type is classified by the roots that its candidates reach. -/
theorem classify_eq_ofRoots (x : Context) (owner : TypeDecl) (type : TypeRef)
    {isNode isResource : Bool} (hnode : isNode = true ↔ x.Capable owner type x.host.node)
    (hresource : isResource = true ↔ x.Capable owner type x.host.resource) :
    x.classify owner type = .ofRoots isNode isResource := by
  have hn := x.any_derivesFrom_iff_capable owner type
    (Compilation.mem_of_lookup x.host.lookup_node)
  have hr := x.any_derivesFrom_iff_capable owner type
    (Compilation.mem_of_lookup x.host.lookup_resource)
  unfold classify
  dsimp only
  rw [Bool.eq_iff_iff.2 (hn.trans hnode.symm), Bool.eq_iff_iff.2 (hr.trans hresource.symm)]

/-- A written type is fetched by path exactly when it counts as a node and not as a resource. -/
theorem classify_eq_path_iff (x : Context) (owner : TypeDecl) (type : TypeRef) :
    x.classify owner type = .path ↔
      x.Capable owner type x.host.node ∧ ¬x.Capable owner type x.host.resource := by
  have hnode := x.any_derivesFrom_iff_capable owner type
    (Compilation.mem_of_lookup x.host.lookup_node)
  have hresource := x.any_derivesFrom_iff_capable owner type
    (Compilation.mem_of_lookup x.host.lookup_resource)
  rw [x.classify_eq_ofRoots owner type hnode hresource, ← hnode, ← hresource]
  cases (x.candidates owner type).any (x.compilation.derivesFrom · x.host.node) <;>
    cases (x.candidates owner type).any (x.compilation.derivesFrom · x.host.resource) <;>
    simp [Classification.ofRoots]

/-- A request for a node or resource that names a property gets the property of a node. -/
theorem judgeGet_of_property {x : Context} {owner : TypeDecl} {m : Member} {options : FetchOptions}
    {p : String} (h : options.property = some p) :
    x.judgeGet owner m options = .ok { strategy := .getNode (x.slot m options) (some p) } := by
  unfold judgeGet
  rw [h]

/-- A request for a node or resource without a property goes by the classification of the type. -/
theorem judgeGet_of_classify {x : Context} {owner : TypeDecl} {m : Member}
    {options : FetchOptions} (h : options.property = none) :
    x.judgeGet owner m options =
      match x.classify owner m.type with
      | .path => .ok { strategy := .getNode (x.slot m options) none }
      | .resource => .ok { strategy := .loadResource (x.slot m options) x.config.editorHint }
      | .unsupported =>
        .error ((Cause.unsupportedType m.name m.type.name x.config.nodeType
          x.config.resourceType).diagnosticAt m.location)
      | .ambiguous =>
        .error ((Cause.ambiguousType m.name m.type.name x.config.nodeType
          x.config.resourceType).diagnosticAt m.location) := by
  unfold judgeGet
  cases hproperty : options.property with
  | some p =>
    rw [hproperty] at h
    cases h
  | none => cases x.classify owner m.type <;> rfl

section Fetch

variable {x : Context} {owner : TypeDecl} {k : Nat} {o : Occurrence} {m : Member}

/-- A request for a node or resource is judged by the options that the attribute gives. -/
theorem judge_of_kind_get (hk : owner.occurrences[k]? = some o) (hsite : o.site = .member m)
    (hkind : o.annotation.kind = .get) :
    x.judge owner o = x.judgeGet owner m o.written.fetchOptions := by
  have hsaid := TypeDecl.annotation_eq_readAs (List.mem_of_getElem? hk)
  rw [hkind] at hsaid
  unfold judge
  rw [hsite, hsaid]
  rfl

/-- A request for a node by its name is judged by the options that the attribute gives. -/
theorem judge_of_kind_find (hk : owner.occurrences[k]? = some o) (hsite : o.site = .member m)
    (hkind : o.annotation.kind = .find) :
    x.judge owner o = x.judgeFind owner m o.written.fetchOptions
      ((o.written.namedBool? "Recursive").getD true)
      ((o.written.namedBool? "Owned").getD true) := by
  have hsaid := TypeDecl.annotation_eq_readAs (List.mem_of_getElem? hk)
  rw [hkind] at hsaid
  unfold judge
  rw [hsite, hsaid]
  rfl

variable (hk : owner.occurrences[k]? = some o) (hsite : o.site = .member m)

include hk hsite

/-- Without a property, a request for a node or resource gets the one that the type of the member
reaches, and an error when it reaches none or both. -/
theorem get_without_property (hkind : o.annotation.kind = .get)
    (hnone : o.written.fetchOptions.property = none) :
    let node := x.Capable owner m.type x.host.node
    let resource := x.Capable owner m.type x.host.resource
    let slot := x.slot m o.written.fetchOptions
    (node ∧ ¬resource → x.Grants owner k m (.getNode slot none)) ∧
    (resource ∧ ¬node → x.Grants owner k m (.loadResource slot x.config.editorHint)) ∧
    (¬node ∧ ¬resource → x.Refuses owner k "ORG0002" m) ∧
    (node ∧ resource → x.Refuses owner k "ORG0003" m) := by
  intro node resource slot
  have hjudge := judge_of_kind_get (x := x) hk hsite hkind
  rw [judgeGet_of_classify hnone] at hjudge
  refine ⟨?_, ?_, ?_, ?_⟩
  · intro hreach
    rw [(x.classify_eq_path_iff owner m.type).2 hreach] at hjudge
    exact grants_of_judge hk hsite hjudge
  · intro ⟨hr, hn⟩
    have hclass : x.classify owner m.type = .resource :=
      x.classify_eq_ofRoots owner m.type (iff_of_false Bool.false_ne_true hn) (iff_of_true rfl hr)
    rw [hclass] at hjudge
    exact grants_of_judge hk hsite hjudge
  · intro ⟨hn, hr⟩
    have hclass : x.classify owner m.type = .unsupported :=
      x.classify_eq_ofRoots owner m.type (iff_of_false Bool.false_ne_true hn)
        (iff_of_false Bool.false_ne_true hr)
    rw [hclass] at hjudge
    exact refuses_of_judge hk (Cause.isErrorAbout_unsupportedType _ _ _ _) hjudge
  · intro ⟨hn, hr⟩
    have hclass : x.classify owner m.type = .ambiguous :=
      x.classify_eq_ofRoots owner m.type (iff_of_true rfl hn) (iff_of_true rfl hr)
    rw [hclass] at hjudge
    exact refuses_of_judge hk (Cause.isErrorAbout_ambiguousType _ _ _ _) hjudge

/-- A request for a node by its name is granted when it names a property or the member is a node and
no resource. -/
theorem find_granted (hkind : o.annotation.kind = .find)
    (h : o.written.fetchOptions.property ≠ none ∨
      x.Capable owner m.type x.host.node ∧ ¬x.Capable owner m.type x.host.resource) :
    x.Grants owner k m
      (.findNode (x.slot m o.written.fetchOptions) o.written.fetchOptions.property
        ((o.written.namedBool? "Recursive").getD true)
        ((o.written.namedBool? "Owned").getD true)) := by
  have hfits : ¬(o.written.fetchOptions.property.isNone = true ∧
      x.classify owner m.type ≠ .path) := by
    intro ⟨hnone, hclass⟩
    rcases h with hproperty | hreach
    · exact hproperty (Option.isNone_iff_eq_none.1 hnone)
    · exact hclass ((x.classify_eq_path_iff owner m.type).2 hreach)
  exact grants_of_judge hk hsite ((judge_of_kind_find hk hsite hkind).trans (if_neg hfits))

/-- Any other request for a node by its name is refused. -/
theorem find_refused (hkind : o.annotation.kind = .find)
    (h : ¬(o.written.fetchOptions.property ≠ none ∨
      x.Capable owner m.type x.host.node ∧ ¬x.Capable owner m.type x.host.resource)) :
    x.Refuses owner k "ORG0008" m := by
  have hnone : o.written.fetchOptions.property = none := by
    by_contra hproperty
    exact h (.inl hproperty)
  have hclass : x.classify owner m.type ≠ .path := by
    intro hpath
    exact h (.inr ((x.classify_eq_path_iff owner m.type).1 hpath))
  have hrefused : o.written.fetchOptions.property.isNone = true ∧
      x.classify owner m.type ≠ .path := ⟨Option.isNone_iff_eq_none.2 hnone, hclass⟩
  exact refuses_of_judge hk (Cause.isErrorAbout_findNeedsNode _ _ _)
    ((judge_of_kind_find hk hsite hkind).trans (if_pos hrefused))

end Fetch

end Context

/-- Reachability in the type hierarchy decides how a value is fetched. Let `node` and `resource` say
that a declared type that stands for the type of the member reaches the node type or the resource
type of the settings. A property that is named wins over both. Without one, a request for a node or
resource gets the node, or the resource, when just that one is reached, and one error when none or
both are; a request for a node by its name needs a node that is no resource. What an annotation gets
is what it brings into the additions and diagnostics of the class, and every annotation has one
outcome there. -/
theorem fetch_follows_reachability (x : Context) (owner : TypeDecl) {k : Nat} {o : Occurrence}
    {m : Member} (hk : owner.occurrences[k]? = some o) (hsite : o.site = .member m) :
    let node := x.Capable owner m.type x.host.node
    let resource := x.Capable owner m.type x.host.resource
    let named := fun p : String => o.written.namedText? "Property" = some p ∧ p ≠ ""
    let slot := x.slot m o.written.fetchOptions
    (x.outcomes owner).length = owner.occurrences.length ∧
    (o.annotation.kind = .get →
      (∀ p, named p → x.Grants owner k m (.getNode slot (some p))) ∧
      ((¬∃ p, named p) →
        (node ∧ ¬resource → x.Grants owner k m (.getNode slot none)) ∧
        (resource ∧ ¬node → x.Grants owner k m (.loadResource slot x.config.editorHint)) ∧
        (¬node ∧ ¬resource → x.Refuses owner k "ORG0002" m) ∧
        (node ∧ resource → x.Refuses owner k "ORG0003" m))) ∧
    (o.annotation.kind = .find →
      (((∃ p, named p) ∨ node ∧ ¬resource) →
        x.Grants owner k m (.findNode slot o.written.fetchOptions.property
          ((o.written.namedBool? "Recursive").getD true)
          ((o.written.namedBool? "Owned").getD true))) ∧
      (¬((∃ p, named p) ∨ node ∧ ¬resource) → x.Refuses owner k "ORG0008" m)) := by
  intro node resource named slot
  have hproperty (p : String) : o.written.fetchOptions.property = some p ↔ named p :=
    o.written.property_fetchOptions_eq_some_iff p
  have hnamed : (∃ p, named p) ↔ o.written.fetchOptions.property ≠ none := by
    rw [Option.ne_none_iff_exists']
    exact exists_congr fun p => (hproperty p).symm
  rw [hnamed]
  refine ⟨x.length_outcomes owner, fun hkind => ⟨fun p hp => ?_, fun hnone => ?_⟩,
    fun hkind => ⟨fun hfind => ?_, fun hfind => ?_⟩⟩
  · have hjudge := Context.judge_of_kind_get (x := x) hk hsite hkind
    exact Context.grants_of_judge hk hsite
      (hjudge.trans (Context.judgeGet_of_property ((hproperty p).2 hp)))
  · exact Context.get_without_property hk hsite hkind (not_not.1 hnone)
  · exact Context.find_granted hk hsite hkind hfind
  · exact Context.find_refused hk hsite hkind hfind

/-- A class with a property of a type that is not declared and a field of a type of resource. -/
def posterTypes : List TypeDecl :=
  [{ name := "Node", namespaceName? := some "Godot" },
   { name := "Resource", namespaceName? := some "Godot" },
   { name := "Texture", namespaceName? := some "Godot", base? := some ⟨"Godot.Resource", false⟩ },
   { name := "Poster", namespaceName? := some "Game", base? := some ⟨"Godot.Node", false⟩,
     properties :=
      [{ name := "Size", type := ⟨"int", false⟩, attributes := [{ name := "OnReadyGet" }] }],
     fields :=
      [{ name := "_image", type := ⟨"Godot.Texture", false⟩,
         attributes := [{ name := "OnReadyGet" }] }] }]

/-- The class under the default settings, met in the source. -/
def posterContext : Context where
  compilation := ⟨posterTypes, [{ name := "Game.Poster" }], keyIndex posterTypes,
    nameIndex posterTypes, by decide +kernel, rfl, rfl⟩
  config := {}
  host := ⟨posterTypes[0], posterTypes[1], by decide +kernel, by decide +kernel⟩

/-- The field is loaded as a resource and the property is an error, and the class has nothing
else. -/
theorem image_of_poster_is_loaded :
    let poster := posterTypes[3]
    let slot := posterContext.slot poster.fields[0] {}
    ∃ d : Diagnostic, d.IsErrorAbout "ORG0002" poster.properties[0] ∧
      (posterContext.resolveClass poster).diagnostics = [d] ∧
      (posterContext.resolveClass poster).additions =
        [⟨3, 0, 0, .loadResource slot posterContext.config.editorHint⟩] := by
  intro poster slot
  let said : Attribute := { name := "OnReadyGet" }
  have hsize : poster.occurrences[0]? = some ⟨.member poster.properties[0], said, .get {}⟩ := by
    decide +kernel
  have himage : poster.occurrences[1]? = some ⟨.member poster.fields[0], said, .get {}⟩ := by
    decide +kernel
  have htwo : poster.occurrences.length = 2 := by decide +kernel
  have hposition : posterContext.compilation.position poster = 3 := by decide +kernel
  have hunnamed : ¬∃ p : String, said.namedText? "Property" = some p ∧ p ≠ "" := nofun
  have hnode (type : TypeRef) := posterContext.any_derivesFrom_iff_capable poster type
    (Compilation.mem_of_lookup posterContext.host.lookup_node)
  have hresource (type : TypeRef) := posterContext.any_derivesFrom_iff_capable poster type
    (Compilation.mem_of_lookup posterContext.host.lookup_resource)
  obtain ⟨-, hget, -⟩ := fetch_follows_reachability posterContext poster hsize rfl
  obtain ⟨-, -, hrefused, -⟩ := (hget rfl).2 hunnamed
  obtain ⟨d, habout, hyields⟩ := hrefused
    ⟨mt (hnode _).2 (by decide +kernel), mt (hresource _).2 (by decide +kernel)⟩
  obtain ⟨-, hget, -⟩ := fetch_follows_reachability posterContext poster himage rfl
  obtain ⟨-, hgranted, -⟩ := (hget rfl).2 hunnamed
  have hnothing : posterContext.additionsBefore poster 1 = [] := hyields.additionsBefore_one
  have hadds := (hgranted ⟨(hresource _).1 (by decide +kernel),
    mt (hnode _).2 (by decide +kernel)⟩).kept (hnothing ▸ nofun)
  have houtcomes := Context.outcomes_eq_pair htwo hyields hadds
  refine ⟨d, habout, ?_, ?_⟩
  · rw [posterContext.diagnostics_resolveClass, houtcomes]
    rfl
  · rw [posterContext.additions_resolveClass, houtcomes, hposition, hnothing]
    rfl

end SceneWiring
