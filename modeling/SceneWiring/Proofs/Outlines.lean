import SceneWiring.Proofs.AgreeingRuns
import SceneWiring.Proofs.Emission
import SceneWiring.Proofs.Lockstep
import SceneWiring.Proofs.NameLookup
/-!
# Outlines of declarations

The outline of a declaration is what the rest of a program sees of it: its names, its base, its
interfaces and its type parameters. Two programs match under a relation when their declarations are
related one by one and related declarations have one outline. In programs that match, every name
denotes related declarations and types derive from the same types, so that all annotations are judged
alike as soon as those that take a value from an ancestor are: only these look at the members of
another type.
-/

namespace SceneWiring

/-- What the rest of a program sees of a declaration. -/
structure TypeDecl.Outline where
  /-- The simple name. -/
  name : String
  /-- The name with namespace and enclosing types in front. -/
  fullName : String
  /-- The base type as written. -/
  base? : Option TypeRef
  /-- The implemented interfaces as written. -/
  interfaces : List TypeRef
  /-- The type parameters, in order. -/
  typeParameters : List TypeParameter
deriving DecidableEq, Repr

/-- The outline of a declaration. -/
def TypeDecl.outline (d : TypeDecl) : TypeDecl.Outline :=
  ⟨d.name, d.fullName, d.base?, d.interfaces, d.typeParameters⟩

namespace TypeDecl

variable {d d' : TypeDecl}

/-- Declarations of one outline have one full name. -/
theorem fullName_eq_of_outline (h : d.outline = d'.outline) : d.fullName = d'.fullName :=
  congrArg Outline.fullName h

/-- Declarations of one outline have the same type parameters. -/
theorem typeParameters_eq_of_outline (h : d.outline = d'.outline) :
    d.typeParameters = d'.typeParameters :=
  congrArg Outline.typeParameters h

/-- Declarations of one outline have one metadata name. -/
theorem metadataName_eq_of_outline (h : d.outline = d'.outline) :
    d.metadataName = d'.metadataName := by
  unfold metadataName
  rw [fullName_eq_of_outline h, typeParameters_eq_of_outline h]

/-- Declarations of one outline have one name with type parameters. -/
theorem declaredName_eq_of_outline (h : d.outline = d'.outline) :
    d.declaredName = d'.declaredName := by
  have hname : d.name = d'.name := congrArg Outline.name h
  unfold declaredName
  rw [hname, typeParameters_eq_of_outline h]

end TypeDecl

/-- The declarations of two programs are related one by one, and related ones have one outline. -/
structure Compilation.Matches (R : TypeDecl → TypeDecl → Prop) (c c' : Compilation) : Prop where
  /-- The declarations are related, in order. -/
  types : List.Forall₂ R c.types c'.types
  /-- Related declarations have one outline. -/
  outline_eq : ∀ {d d'}, R d d' → d.outline = d'.outline

/-- A visit of the same mention to a related declaration. -/
structure Visit.Matches (R : TypeDecl → TypeDecl → Prop) (v v' : Visit) : Prop where
  /-- The mention is the same. -/
  mention_eq : v.mention = v'.mention
  /-- The declarations are related. -/
  decl : Option.Rel R v.decl? v'.decl?

namespace Compilation.Matches

variable {R : TypeDecl → TypeDecl → Prop} {c c' : Compilation} {d d' : TypeDecl}

/-- Related declarations have one metadata name. -/
theorem metadataName_eq (h : c.Matches R c') (hd : R d d') : d.metadataName = d'.metadataName :=
  TypeDecl.metadataName_eq_of_outline (h.outline_eq hd)

/-- Programs that match have the same metadata names. -/
theorem metadataNames_eq (h : c.Matches R c') :
    c.types.map TypeDecl.metadataName = c'.types.map TypeDecl.metadataName :=
  map_eq_of_forall₂ h.types h.metadataName_eq

/-- A name denotes related declarations in programs that match, or nothing in both. -/
theorem lookup_rel (h : c.Matches R c') (name : String) :
    Option.Rel R (c.lookup name) (c'.lookup name) := by
  have hnames : c.types.map TypeDecl.fullName = c'.types.map TypeDecl.fullName :=
    map_eq_of_forall₂ h.types fun hd => TypeDecl.fullName_eq_of_outline (h.outline_eq hd)
  rw [lookup_eq_scan, lookup_eq_scan, ← scan?_congr h.metadataNames_eq hnames]
  cases scan? c.types name with
  | none => exact .none
  | some i => exact rel_getElem? h.types i

/-- In programs that match the same names denote something. -/
theorem isSome_lookup_eq (h : c.Matches R c') (name : String) :
    (c.lookup name).isSome = (c'.lookup name).isSome := by
  have hlookup := h.lookup_rel name
  generalize c.lookup name = found, c'.lookup name = found' at hlookup ⊢
  cases hlookup <;> rfl

/-- Declarations of one outline stand at the same place. -/
theorem position_eq (h : c.Matches R c') (hd : d.outline = d'.outline) :
    c.position d = c'.position d' := by
  have hindex := congrArg (List.findIdx (· == d.metadataName)) h.metadataNames_eq
  rw [List.findIdx_map, List.findIdx_map] at hindex
  unfold position
  rw [← TypeDecl.metadataName_eq_of_outline hd]
  exact hindex

/-- The searches through the hierarchies of programs that match go in lockstep. -/
theorem follows (h : c.Matches R c') : c.Follows R c' where
  name_eq := h.metadataName_eq
  parents {d d'} hd := by
    have hbase : d.base? = d'.base? := congrArg TypeDecl.Outline.base? (h.outline_eq hd)
    have hinterfaces : d.interfaces = d'.interfaces :=
      congrArg TypeDecl.Outline.interfaces (h.outline_eq hd)
    unfold parents
    rw [← hbase, ← hinterfaces]
    refine List.rel_filterMap (R := Eq) ?_ (List.forall₂_same.2 fun _ _ => rfl)
    rintro type _ rfl
    exact h.lookup_rel type.name
  length_eq := h.types.length_eq

/-- Generated code writes a type alike in programs that match. -/
theorem display_eq (h : c.Matches R c') (type : TypeRef) : c.display type = c'.display type := by
  have hlookup := h.lookup_rel type.name
  unfold display resolve
  generalize c.lookup type.name = found, c'.lookup type.name = found' at hlookup ⊢
  cases hlookup with
  | none => rfl
  | some hd =>
    dsimp only
    rw [TypeDecl.fullName_eq_of_outline (h.outline_eq hd)]

/-- The same mentions are looked at in programs that match. -/
theorem visits_rel (h : c.Matches R c') (hmentions : c.mentions = c'.mentions) :
    List.Forall₂ (Visit.Matches R) c.visits c'.visits := by
  have each (met : List String) (ms : List Mention) :
      List.Forall₂ (Visit.Matches R) (c.visitsAfter met ms) (c'.visitsAfter met ms) := by
    induction ms generalizing met with
    | nil => exact .nil
    | cons m rest ih =>
      have hlookup := h.lookup_rel m.name
      rw [visitsAfter, visitsAfter]
      generalize c.lookup m.name = found, c'.lookup m.name = found' at hlookup ⊢
      cases hlookup with
      | none => exact .cons ⟨rfl, .none⟩ (ih met)
      | some hd =>
        dsimp only
        rw [← h.metadataName_eq hd]
        split
        · exact ih met
        · exact .cons ⟨rfl, .some hd⟩ (ih _)
  rw [visits, visits, ← hmentions]
  exact each [] c.mentions

/-- In programs that match a type is met in both or in none, when the mentions are the same. -/
theorem met_iff (h : c.Matches R c') (hmentions : c.mentions = c'.mentions) (hd : R d d')
    (hmem : d ∈ c.types) (hmem' : d' ∈ c'.types) : c'.Met d' ↔ c.Met d := by
  have hname := h.metadataName_eq hd
  have hdenotes (name : String) : c'.lookup name = some d' ↔ c.lookup name = some d := by
    have hlookup := h.lookup_rel name
    generalize hfound : c.lookup name = found, hfound' : c'.lookup name = found' at hlookup
    cases hlookup with
    | none => exact iff_of_false (Option.some_ne_none d').symm (Option.some_ne_none d).symm
    | @some e e' he =>
      have hname' := h.metadataName_eq he
      rw [Option.some.injEq, Option.some.injEq]
      constructor
      · rintro rfl
        exact eq_of_metadataName (mem_of_lookup hfound) hmem (hname'.trans hname.symm)
      · rintro rfl
        exact eq_of_metadataName (mem_of_lookup hfound') hmem' (hname'.symm.trans hname)
  rw [Met, Met, ← hmentions]
  exact exists_congr fun m => and_congr_right fun _ => hdenotes m.name

end Compilation.Matches

/-- Both judgements grant the same request, or both refuse with diagnostics that are related. -/
inductive SameJudgement (T : Diagnostic → Diagnostic → Prop) :
    Except Diagnostic Request → Except Diagnostic Request → Prop
  | granted (request : Request) : SameJudgement T (.ok request) (.ok request)
  | refused {d d' : Diagnostic} (h : T d d') : SameJudgement T (.error d) (.error d')

/-- A judgement is the same as itself. -/
theorem SameJudgement.refl {T : Diagnostic → Diagnostic → Prop} (hrefl : ∀ d, T d d)
    (judgement : Except Diagnostic Request) : SameJudgement T judgement judgement := by
  cases judgement with
  | error d => exact .refused (hrefl d)
  | ok request => exact .granted request

/-- The resolutions have the same additions, and diagnostics that are related one by one. -/
structure Resolution.SameUpTo (T : Diagnostic → Diagnostic → Prop) (r r' : Resolution) : Prop where
  /-- The additions are the same. -/
  additions_eq : r.additions = r'.additions
  /-- The diagnostics are related, in order. -/
  diagnostics : List.Forall₂ T r.diagnostics r'.diagnostics

namespace Resolution.SameUpTo

variable {T : Diagnostic → Diagnostic → Prop} {r r' : Resolution}

/-- Related diagnostics may be reported in addition. -/
theorem report (h : r.SameUpTo T r') {d d' : Diagnostic} (hd : T d d') :
    (r.report d).SameUpTo T (r'.report d') where
  additions_eq := h.additions_eq
  diagnostics := List.rel_append h.diagnostics (.cons hd .nil)

/-- The same request may be granted in addition. -/
theorem push (h : r.SameUpTo T r') (owner : Nat) (request : Request) :
    (r.push owner request).SameUpTo T (r'.push owner request) where
  additions_eq := by
    rw [Resolution.additions_push, Resolution.additions_push, h.additions_eq]
  diagnostics := h.diagnostics

/-- Resolutions that are the same up to nothing are the same. -/
theorem eq (h : r.SameUpTo Eq r') : r = r' := by
  have hdiagnostics := h.diagnostics
  rw [List.forall₂_eq_eq_eq] at hdiagnostics
  exact Resolution.eq_of_lists h.additions_eq hdiagnostics

end Resolution.SameUpTo

namespace Context

/-- The second context is for the same settings and a program that matches. -/
structure Matches (R : TypeDecl → TypeDecl → Prop) (x x' : Context) : Prop where
  /-- The settings are the same. -/
  config_eq : x.config = x'.config
  /-- The programs match. -/
  compilation : x.compilation.Matches R x'.compilation

namespace Matches

variable {R : TypeDecl → TypeDecl → Prop} {x x' : Context} {owner owner' : TypeDecl}

/-- What one name denotes in programs that match is related. -/
theorem of_lookup (h : x.Matches R x') {name name' : String} {d d' : TypeDecl}
    (hname : name = name') (hd : x.compilation.lookup name = some d)
    (hd' : x'.compilation.lookup name' = some d') : R d d' := by
  have hlookup := h.compilation.lookup_rel name
  rw [hd, hname, hd'] at hlookup
  cases hlookup with
  | some hrel => exact hrel

/-- Matching programs match as programs of their declarations. -/
theorem and_mem (h : x.Matches R x') :
    x.Matches (fun d d' => R d d' ∧ d ∈ x.compilation.types ∧ d' ∈ x'.compilation.types) x' where
  config_eq := h.config_eq
  compilation := ⟨forall₂_and_mem h.compilation.types, fun hd => h.compilation.outline_eq hd.1⟩

/-- The roots of the types fetched by path are related. -/
theorem node (h : x.Matches R x') : R x.host.node x'.host.node :=
  h.of_lookup (congrArg Config.nodeType h.config_eq) x.host.lookup_node x'.host.lookup_node

/-- The roots of the types loaded as resources are related. -/
theorem resource (h : x.Matches R x') : R x.host.resource x'.host.resource :=
  h.of_lookup (congrArg Config.resourceType h.config_eq) x.host.lookup_resource
    x'.host.lookup_resource

/-- A written type stands for related declarations inside classes of one outline. -/
theorem candidates_rel (h : x.Matches R x') (howner : owner.outline = owner'.outline)
    (type : TypeRef) : List.Forall₂ R (x.candidates owner type) (x'.candidates owner' type) := by
  unfold candidates TypeDecl.typeParameter?
  rw [← TypeDecl.typeParameters_eq_of_outline howner]
  cases owner.typeParameters.find? (·.name == type.definitionName) with
  | none => exact rel_toList (h.compilation.lookup_rel type.name)
  | some p =>
    refine List.rel_filterMap (R := Eq) ?_ (List.forall₂_same.2 fun _ _ => rfl)
    rintro bound _ rfl
    exact h.compilation.lookup_rel bound.name

/-- A written type is fetched in the same way inside classes of one outline. -/
theorem classify_eq (h : x.Matches R x') (howner : owner.outline = owner'.outline)
    (type : TypeRef) : x.classify owner type = x'.classify owner' type := by
  have hcandidates := h.candidates_rel howner type
  unfold classify
  dsimp only
  rw [h.compilation.follows.any_derivesFrom_eq hcandidates h.node,
    h.compilation.follows.any_derivesFrom_eq hcandidates h.resource]

/-- A member gets the same slot. -/
theorem slot_eq (h : x.Matches R x') (m : Member) (options : FetchOptions) :
    x.slot m options = x'.slot m options := by
  rw [slot, slot, h.compilation.display_eq m.type]

/-- The same values can be assigned. -/
theorem assignable_eq (h : x.Matches R x') (source target : TypeRef) :
    x.assignable source target = x'.assignable source target := by
  have hs := h.compilation.lookup_rel source.name
  have ht := h.compilation.lookup_rel target.name
  unfold assignable Compilation.resolve
  generalize x.compilation.lookup source.name = s, x'.compilation.lookup source.name = s' at hs ⊢
  generalize x.compilation.lookup target.name = t, x'.compilation.lookup target.name = t' at ht ⊢
  cases hs with
  | none => cases ht <;> rfl
  | some hs =>
    cases ht with
    | none => rfl
    | some ht => exact h.compilation.follows.derivesFrom_eq hs ht

/-- A member can take its value from the same members of a type. -/
theorem sources_eq (h : x.Matches R x') (ancestor : TypeDecl) (type : TypeRef) :
    x.sources ancestor type = x'.sources ancestor type := by
  unfold sources
  simp only [h.assignable_eq]

/-- Requests for a node or resource are judged alike. -/
theorem judgeGet_eq (h : x.Matches R x') (howner : owner.outline = owner'.outline) (m : Member)
    (options : FetchOptions) : x.judgeGet owner m options = x'.judgeGet owner' m options := by
  rw [judgeGet, judgeGet, h.slot_eq, h.classify_eq howner, h.config_eq]

/-- Requests for a node by its name are judged alike. -/
theorem judgeFind_eq (h : x.Matches R x') (howner : owner.outline = owner'.outline) (m : Member)
    (options : FetchOptions) (recursive owned : Bool) :
    x.judgeFind owner m options recursive owned =
      x'.judgeFind owner' m options recursive owned := by
  rw [judgeFind, judgeFind, h.slot_eq, h.classify_eq howner, h.config_eq]

/-- Requests for an enumeration are judged alike for classes of one outline that list the same
fields. -/
theorem judgeEnum_eq (howner : owner.outline = owner'.outline)
    (hfields : listedFields owner = listedFields owner') (name : Option String)
    (location : Location) : judgeEnum owner name location = judgeEnum owner' name location := by
  have hname : owner.name = owner'.name := congrArg TypeDecl.Outline.name howner
  unfold judgeEnum
  rw [hname, hfields, TypeDecl.declaredName_eq_of_outline howner,
    TypeDecl.typeParameters_eq_of_outline howner]

variable {T : Diagnostic → Diagnostic → Prop}

/-- Every annotation is judged alike, provided that those that take a value from an ancestor are. -/
theorem judge_same (h : x.Matches R x') (hrefl : ∀ d, T d d)
    (hinject : ∀ m type name, SameJudgement T (x.judgeInject m type name)
      (x'.judgeInject m type name))
    (howner : owner.outline = owner'.outline)
    (hfields : listedFields owner = listedFields owner') (o : Occurrence) :
    SameJudgement T (x.judge owner o) (x'.judge owner' o) := by
  by_cases hfits : o.Fits
  · obtain ⟨site, written, annotation⟩ := o
    cases site with
    | type =>
      cases annotation with
      | selectorEnum name =>
        unfold judge
        dsimp only
        rw [judgeEnum_eq howner hfields]
        exact .refl hrefl _
      | get | find | injectAncestor | onReady => cases hfits
    | member m =>
      cases annotation with
      | get options =>
        unfold judge
        dsimp only
        rw [h.judgeGet_eq howner]
        exact .refl hrefl _
      | find options recursive owned =>
        unfold judge
        dsimp only
        rw [h.judgeFind_eq howner]
        exact .refl hrefl _
      | injectAncestor type name => exact hinject m type name
      | onReady | selectorEnum => cases hfits
    | method m =>
      cases annotation with
      | onReady order => exact .refl hrefl (judgeCall m order)
      | get | find | injectAncestor | selectorEnum => cases hfits
  · have hname : o.site.name owner = o.site.name owner' := by
      cases o.site with
      | type => exact congrArg TypeDecl.Outline.name howner
      | member | method => rfl
    rw [judge_misplaced hfits, judge_misplaced hfits, hname]
    exact .refl hrefl _

/-- A step keeps resolutions the same when its annotation is judged alike. -/
theorem step_same (h : x.Matches R x') (hrefl : ∀ d, T d d)
    (howner : owner.outline = owner'.outline) {o : Occurrence}
    (hjudge : SameJudgement T (x.judge owner o) (x'.judge owner' o)) {r r' : Resolution}
    (hr : r.SameUpTo T r') : (r.step x owner o).SameUpTo T (r'.step x' owner' o) := by
  generalize hgiven : x.judge owner o = judgement, hgiven' : x'.judge owner' o = judgement' at hjudge
  cases hjudge with
  | refused hd =>
    rw [Resolution.step_of_error r hgiven, Resolution.step_of_error r' hgiven']
    exact hr.report hd
  | granted request =>
    have hclash := Resolution.clash?_congr hr.additions_eq o.site request
    cases hheld : r.clash? o.site request with
    | some d =>
      rw [Resolution.step_of_clash hgiven hheld,
        Resolution.step_of_clash hgiven' (hclash.symm.trans hheld)]
      exact hr.report (hrefl d)
    | none =>
      rw [Resolution.step_of_no_clash hgiven hheld,
        Resolution.step_of_no_clash hgiven' (hclash.symm.trans hheld),
        h.compilation.position_eq howner]
      exact hr.push _ request

/-- Classes of one outline with the same annotations and fields have the same resolution, provided
that annotations that take a value from an ancestor are judged alike. -/
theorem resolveClass_same (h : x.Matches R x') (hrefl : ∀ d, T d d)
    (hinject : ∀ m type name, SameJudgement T (x.judgeInject m type name)
      (x'.judgeInject m type name))
    (howner : owner.outline = owner'.outline)
    (hfields : listedFields owner = listedFields owner')
    (hoccurrences : owner.occurrences = owner'.occurrences) :
    (x.resolveClass owner).SameUpTo T (x'.resolveClass owner') := by
  unfold resolveClass
  rw [← hoccurrences]
  refine List.rel_foldl (R := Eq) (P := Resolution.SameUpTo T) ?_ ⟨rfl, .nil⟩
    (List.forall₂_same.2 fun _ _ => rfl)
  rintro r r' hr o _ rfl
  exact h.step_same hrefl howner (h.judge_same hrefl hinject howner hfields o) hr

end Matches

end Context

end SceneWiring
