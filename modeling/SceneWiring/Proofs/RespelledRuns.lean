import SceneWiring.Proofs.AgreeingRuns
import SceneWiring.Proofs.Respelling
/-!
# Runs over a program spelled anew

In a program with types spelled anew every annotation is judged alike: it is granted the same request,
or it is refused with a diagnostic that differs in its wording alone. So a run gives the same units,
and diagnostics of the same codes and severities at the same places.
-/

namespace SceneWiring

/-- What a diagnostic says apart from its wording. -/
def Diagnostic.heading (d : Diagnostic) : String × Severity × Option Location :=
  (d.code, d.severity, d.location?)

/-- Errors of one code and severity at one place differ in their wording alone. -/
theorem Cause.mapError_heading_eq {cause cause' : Cause} (hcode : cause.code = cause'.code)
    (hseverity : cause.severity = cause'.severity) (l : Location) :
    (Except.error (cause.diagnosticAt l) : Except Diagnostic Request).mapError
        Diagnostic.heading =
      (Except.error (cause'.diagnosticAt l)).mapError Diagnostic.heading := by
  have hheading : (cause.diagnosticAt l).heading = (cause'.diagnosticAt l).heading := by
    unfold Diagnostic.heading Cause.diagnosticAt
    dsimp only
    rw [hcode, hseverity]
  exact congrArg Except.error hheading

/-- What an annotation stands on, spelled anew. -/
inductive Site.Respelled (c : Compilation) : Site → Site → Prop
  | type : Respelled c .type .type
  | member {m m' : Member} (hm : m.Respelled c m') : Respelled c (.member m) (.member m')
  | method (m : Method) : Respelled c (.method m) (.method m)

/-- A site spelled anew is of the same kind. -/
theorem Site.Respelled.target_eq {c : Compilation} {site site' : Site}
    (h : site.Respelled c site') : site.target = site'.target := by
  cases h <;> rfl

/-- An annotation at a site spelled anew. -/
structure Occurrence.Respelled (c : Compilation) (o o' : Occurrence) : Prop where
  /-- The site is spelled anew. -/
  site : o.site.Respelled c o'.site
  /-- The attribute is the same. -/
  written_eq : o.written = o'.written
  /-- The attribute says the same. -/
  annotation_eq : o.annotation = o'.annotation

namespace TypeDecl.Respelled

variable {c : Compilation} {d d' : TypeDecl}

/-- The sites of a declaration spelled anew have the same attributes. -/
theorem sites_rel (h : d.Respelled c d') :
    List.Forall₂ (fun s s' => s.1.Respelled c s'.1 ∧ s.2 = s'.2) d.sites d'.sites := by
  have hmembers {ms ms' : List Member} (hms : List.Forall₂ (Member.Respelled c) ms ms') :
      List.Forall₂ (fun s s' : Site × List Attribute => s.1.Respelled c s'.1 ∧ s.2 = s'.2)
        (ms.map fun m => (Site.member m, m.attributes))
        (ms'.map fun m => (Site.member m, m.attributes)) :=
    List.rel_map (fun _ _ hm => ⟨.member hm, hm.attributes_eq⟩) hms
  have hmethods : d.methods = d'.methods := (congrArg TypeDecl.methods h.rest.symm :)
  have hattributes : d.attributes = d'.attributes := (congrArg TypeDecl.attributes h.rest.symm :)
  unfold TypeDecl.sites
  rw [← hmethods, ← hattributes]
  refine List.rel_append (List.rel_append (.cons ⟨.type, rfl⟩ (hmembers h.properties))
    (hmembers h.fields)) ?_
  rw [List.forall₂_map_left_iff, List.forall₂_map_right_iff, List.forall₂_same]
  exact fun m _ => ⟨.method m, rfl⟩

/-- The annotations of a declaration spelled anew are the same, at sites spelled anew. -/
theorem occurrences_rel (h : d.Respelled c d') :
    List.Forall₂ (Occurrence.Respelled c) d.occurrences d'.occurrences := by
  refine List.rel_flatMap h.sites_rel fun s s' hs => ?_
  obtain ⟨site, attributes⟩ := s
  obtain ⟨site', attributes'⟩ := s'
  obtain ⟨hsite, rfl⟩ := hs
  refine List.rel_filterMap (R := Eq) ?_ ((List.forall₂_same).2 fun _ _ => rfl)
  rintro a _ rfl
  dsimp only
  cases a.annotation? with
  | none => exact .none
  | some annotation => exact .some ⟨hsite, rfl, rfl⟩

/-- The fields that an enumeration lists are the same. -/
theorem listedFields_eq (h : d.Respelled c d') :
    Context.listedFields d = Context.listedFields d' := by
  have hlisted : List.Forall₂ (Member.Respelled c)
      (d.fields.filter fun m => m.isStatic && m.isReadonly && !m.implicit)
      (d'.fields.filter fun m => m.isStatic && m.isReadonly && !m.implicit) := by
    refine List.rel_filter (fun m m' hm => ?_) h.fields
    rw [hm.rest]
  exact map_eq_of_forall₂ hlisted Member.Respelled.name_eq

end TypeDecl.Respelled

namespace Context.Respelled

variable {x x' : Context} {owner owner' : TypeDecl} {m m' : Member}

/-- Requests for a node or resource are judged alike. -/
theorem judgeGet_eq (h : x.Respelled x') (howner : owner.Respelled x.compilation owner')
    (hm : m.Respelled x.compilation m') (options : FetchOptions) :
    (x.judgeGet owner m options).mapError Diagnostic.heading =
      (x'.judgeGet owner' m' options).mapError Diagnostic.heading := by
  unfold judgeGet
  rw [h.slot_eq hm, h.classify_eq howner hm.type, h.config_eq, hm.location_eq]
  dsimp only
  split
  · rfl
  · split
    · rfl
    · rfl
    · refine Cause.mapError_heading_eq ?_ ?_ m'.location <;> rfl
    · refine Cause.mapError_heading_eq ?_ ?_ m'.location <;> rfl

/-- Requests for a node by its name are judged alike. -/
theorem judgeFind_eq (h : x.Respelled x') (howner : owner.Respelled x.compilation owner')
    (hm : m.Respelled x.compilation m') (options : FetchOptions) (recursive owned : Bool) :
    (x.judgeFind owner m options recursive owned).mapError Diagnostic.heading =
      (x'.judgeFind owner' m' options recursive owned).mapError Diagnostic.heading := by
  unfold judgeFind
  rw [h.slot_eq hm, h.classify_eq howner hm.type, hm.location_eq]
  split
  · refine Cause.mapError_heading_eq ?_ ?_ m'.location <;> rfl
  · rfl

/-- Requests for a value from an ancestor of a type are judged alike when the types named denote the
same declaration spelled anew. -/
theorem judgeInject_some_eq (h : x.Respelled x') (hm : m.Respelled x.compilation m')
    {type type' : String} (hancestor : Option.Rel (TypeDecl.Respelled x.compilation)
      (x.compilation.lookup type) (x'.compilation.lookup type')) (ancestorName : Option String) :
    (x.judgeInject m (some type) ancestorName).mapError Diagnostic.heading =
      (x'.judgeInject m' (some type') ancestorName).mapError Diagnostic.heading := by
  have hkey := map_eq_of_rel (h.compilation.resolve_rel hm.type) TypeDecl.Respelled.metadataName_eq
  unfold judgeInject
  dsimp only
  rw [hkey, hm.name_eq, hm.location_eq]
  generalize x.compilation.lookup type = a, x'.compilation.lookup type' = a' at hancestor ⊢
  cases hancestor with
  | none =>
    dsimp only
    refine Cause.mapError_heading_eq ?_ ?_ m'.location <;> rfl
  | @some a a' ha =>
    have hsources := h.sources_rel ha hm.type
    dsimp only
    rw [ha.metadataName_eq, ha.name_eq, ha.fullName_eq]
    split
    · rfl
    · -- Of the sources only their number and their names count.
      generalize x.sources a m.type = found, x'.sources a' m'.type = found' at hsources ⊢
      cases hsources with
      | nil =>
        dsimp only
        refine Cause.mapError_heading_eq ?_ ?_ m'.location <;> rfl
      | cons hs hrest =>
        cases hrest with
        | nil =>
          dsimp only
          rw [hs.name_eq]
        | cons =>
          dsimp only
          refine Cause.mapError_heading_eq ?_ ?_ m'.location <;> rfl

/-- Requests for a value from an ancestor are judged alike. Without a type of its own the ancestor
is of the type of the member. -/
theorem judgeInject_eq (h : x.Respelled x') (hm : m.Respelled x.compilation m')
    (ancestorType ancestorName : Option String) :
    (x.judgeInject m ancestorType ancestorName).mapError Diagnostic.heading =
      (x'.judgeInject m' ancestorType ancestorName).mapError Diagnostic.heading := by
  cases ancestorType with
  | none => exact h.judgeInject_some_eq hm (h.compilation.resolve_rel hm.type) ancestorName
  | some type => exact h.judgeInject_some_eq hm (h.compilation.lookup_rel type) ancestorName

/-- Requests for an enumeration are judged alike. -/
theorem judgeEnum_eq (howner : owner.Respelled x.compilation owner') (name : Option String)
    (location : Location) : judgeEnum owner name location = judgeEnum owner' name location := by
  have hempty := congrArg List.isEmpty howner.parameterNames_eq
  rw [List.isEmpty_map, List.isEmpty_map] at hempty
  unfold judgeEnum
  rw [howner.name_eq, howner.declaredName_eq, howner.listedFields_eq, hempty]

/-- Every annotation is judged alike. -/
theorem judge_eq (h : x.Respelled x') (howner : owner.Respelled x.compilation owner')
    {o o' : Occurrence} (ho : o.Respelled x.compilation o') :
    (x.judge owner o).mapError Diagnostic.heading =
      (x'.judge owner' o').mapError Diagnostic.heading := by
  by_cases hfits : o.Fits
  · obtain ⟨site, written, annotation⟩ := o
    obtain ⟨site', _, _⟩ := o'
    obtain ⟨hsite, rfl, rfl⟩ := ho
    cases hsite with
    | type =>
      cases annotation with
      | selectorEnum name => exact congrArg _ (judgeEnum_eq howner name written.location)
      | get | find | injectAncestor | onReady => cases hfits
    | member hm =>
      cases annotation with
      | get options => exact h.judgeGet_eq howner hm options
      | find options recursive owned => exact h.judgeFind_eq howner hm options recursive owned
      | injectAncestor type name => exact h.judgeInject_eq hm type name
      | onReady | selectorEnum => cases hfits
    | method m =>
      cases annotation with
      | onReady order => rfl
      | get | find | injectAncestor | selectorEnum => cases hfits
  · have hfits' : ¬o'.Fits := by
      unfold Occurrence.Fits at hfits ⊢
      rwa [← ho.annotation_eq, ← ho.site.target_eq]
    rw [judge_misplaced hfits, judge_misplaced hfits', ho.written_eq]
    exact Cause.mapError_heading_eq rfl rfl _

end Context.Respelled

namespace Resolution

/-- The resolutions have the same additions, and diagnostics that differ in their wording alone. -/
structure Alike (r r' : Resolution) : Prop where
  /-- The additions are the same. -/
  additions_eq : r.additions = r'.additions
  /-- The diagnostics have the same codes, severities and places, in the same order. -/
  headings_eq : r.diagnostics.map Diagnostic.heading = r'.diagnostics.map Diagnostic.heading

namespace Alike

variable {r r' : Resolution}

/-- Diagnostics that differ in their wording may be reported in addition. -/
theorem report (h : r.Alike r') {d d' : Diagnostic} (hd : d.heading = d'.heading) :
    (r.report d).Alike (r'.report d') where
  additions_eq := h.additions_eq
  headings_eq := by
    unfold Resolution.report
    simp only [List.map_append, List.map_cons, List.map_nil, h.headings_eq, hd]

/-- The same request may be granted in addition. -/
theorem push (h : r.Alike r') (owner : Nat) (request : Request) :
    (r.push owner request).Alike (r'.push owner request) where
  additions_eq := by
    rw [Resolution.additions_push, Resolution.additions_push, h.additions_eq]
  headings_eq := h.headings_eq

/-- A request clashes in both or in none, however its site is spelled. -/
theorem clash?_eq (h : r.Alike r') {c : Compilation} {site site' : Site}
    (hsite : site.Respelled c site') (request : Request) :
    r.clash? site request = r'.clash? site' request := by
  rw [clash?_congr h.additions_eq]
  cases hsite with
  | type | method => rfl
  | member hm =>
    unfold clash?
    cases request.strategy.companion? with
    | none => rfl
    | some companion =>
      dsimp only
      rw [hm.name_eq, hm.location_eq]

end Alike

end Resolution

namespace Context.Respelled

variable {x x' : Context} {owner owner' : TypeDecl}

/-- A step keeps resolutions alike. -/
theorem step_alike (h : x.Respelled x') (howner : owner.Respelled x.compilation owner')
    {r r' : Resolution} (hr : r.Alike r') {o o' : Occurrence}
    (ho : o.Respelled x.compilation o') : (r.step x owner o).Alike (r'.step x' owner' o') := by
  have hjudge := h.judge_eq howner ho
  cases hgiven : x.judge owner o with
  | error d =>
    cases hgiven' : x'.judge owner' o' with
    | error d' =>
      rw [hgiven, hgiven'] at hjudge
      rw [Resolution.step_of_error r hgiven, Resolution.step_of_error r' hgiven']
      exact hr.report (Except.error.inj hjudge)
    | ok request' =>
      rw [hgiven, hgiven'] at hjudge
      cases hjudge
  | ok request =>
    cases hgiven' : x'.judge owner' o' with
    | error d' =>
      rw [hgiven, hgiven'] at hjudge
      cases hjudge
    | ok request' =>
      rw [hgiven, hgiven'] at hjudge
      cases Except.ok.inj hjudge
      have hclash := hr.clash?_eq ho.site request
      cases hheld : r.clash? o.site request with
      | some d =>
        rw [Resolution.step_of_clash hgiven hheld,
          Resolution.step_of_clash hgiven' (hclash.symm.trans hheld)]
        exact hr.report rfl
      | none =>
        rw [Resolution.step_of_no_clash hgiven hheld,
          Resolution.step_of_no_clash hgiven' (hclash.symm.trans hheld),
          h.compilation.position_eq howner]
        exact hr.push _ request

/-- A class and the same class spelled anew have resolutions that are alike. -/
theorem resolveClass_alike (h : x.Respelled x') (howner : owner.Respelled x.compilation owner') :
    (x.resolveClass owner).Alike (x'.resolveClass owner') := by
  unfold resolveClass
  exact List.rel_foldl (R := Occurrence.Respelled x.compilation) (P := Resolution.Alike)
    (fun _ _ hr _ _ ho => h.step_alike howner hr ho) ⟨rfl, rfl⟩ howner.occurrences_rel

end Context.Respelled

/-- A visit of the same mention to a declaration spelled anew. -/
structure Visit.Respelled (c : Compilation) (v v' : Visit) : Prop where
  /-- The mention is the same. -/
  mention_eq : v.mention = v'.mention
  /-- The declaration is spelled anew. -/
  decl : Option.Rel (TypeDecl.Respelled c) v.decl? v'.decl?

/-- The same mentions are looked at in a program spelled anew. -/
theorem Compilation.Respelled.visits_rel {c c' : Compilation} (h : c.Respelled c') :
    List.Forall₂ (Visit.Respelled c) c.visits c'.visits := by
  have each (met : List String) (ms : List Mention) :
      List.Forall₂ (Visit.Respelled c) (c.visitsAfter met ms) (c'.visitsAfter met ms) := by
    induction ms generalizing met with
    | nil => exact .nil
    | cons m rest ih =>
      have hlookup := h.lookup_rel m.name
      rw [visitsAfter, visitsAfter]
      generalize c.lookup m.name = found, c'.lookup m.name = found' at hlookup ⊢
      cases hlookup with
      | none => exact .cons ⟨rfl, .none⟩ (ih met)
      | some hd =>
        dsimp only
        rw [← hd.metadataName_eq]
        split
        · exact ih met
        · exact .cons ⟨rfl, .some hd⟩ (ih _)
  rw [visits, visits, ← h.mentions_eq]
  exact each [] c.mentions

/-- The text of a unit does not show how the types in the declaration of its class are spelled. -/
theorem ClassUnit.render_respelled {c : Compilation} {d d' : TypeDecl} (h : d.Respelled c d')
    (config : Config) (u : ClassUnit) : u.render config d = u.render config d' := by
  have hhint : hintName d = hintName d' := by
    unfold hintName
    rw [h.namespaceName?_eq, h.name_eq, h.typeParameters.length_eq]
  have hconstructor (fragments : List (List Code)) :
      constructorSection d fragments = constructorSection d' fragments := by
    unfold constructorSection
    rw [h.name_eq]
  have hclass : u.classCode config d = u.classCode config d' := by
    unfold classCode sections
    rw [hconstructor, h.declaredName_eq]
  unfold render code
  rw [hhint, hclass, h.namespaceName?_eq]

/-- The units are the same, and the diagnostics are the same in number, order, code, severity and
place. -/
def Generation.SameUpToWording (g g' : Generation) : Prop :=
  g'.units = g.units ∧
    g'.diagnostics.map Diagnostic.heading = g.diagnostics.map Diagnostic.heading

namespace Context.Respelled

variable {x x' : Context}

/-- Visits to a declaration and to the same spelled anew have resolutions that are alike. -/
theorem resolveVisit_alike (h : x.Respelled x') {v v' : Visit}
    (hv : v.Respelled x.compilation v') : (x.resolveVisit v).Alike (x'.resolveVisit v') := by
  obtain ⟨mention, decl?⟩ := v
  obtain ⟨_, decl?'⟩ := v'
  obtain ⟨rfl, hdecl⟩ := hv
  cases hdecl with
  | none => exact ⟨rfl, rfl⟩
  | some hd =>
    have hclass := h.resolveClass_alike hd
    unfold resolveVisit
    dsimp only
    rw [← hd.nestedIn?_eq, ← hd.name_eq, ← hclass.additions_eq]
    split
    · split
      · exact hclass
      · refine ⟨rfl, ?_⟩
        rw [Resolution.diagnostics_ofDiagnostics, Resolution.diagnostics_ofDiagnostics,
          List.map_append, List.map_append, hclass.headings_eq]
    · exact hclass

/-- The resolutions of all visits are alike. -/
theorem resolutions_alike (h : x.Respelled x') :
    List.Forall₂ Resolution.Alike (x.compilation.visits.map x.resolveVisit)
      (x'.compilation.visits.map x'.resolveVisit) :=
  List.rel_map (fun _ _ hv => h.resolveVisit_alike hv) h.compilation.visits_rel

/-- A run over a program spelled anew gives the same up to the wording of diagnostics. -/
theorem generate_sameUpToWording (h : x.Respelled x') :
    x.generate.SameUpToWording x'.generate := by
  have hadditions := map_eq_of_forall₂ h.resolutions_alike Resolution.Alike.additions_eq
  have hheadings := map_eq_of_forall₂ h.resolutions_alike Resolution.Alike.headings_eq
  have hunit (u : ClassUnit) : x'.compilation.renderUnit? x'.config u =
      x.compilation.renderUnit? x.config u := by
    unfold Compilation.renderUnit?
    rw [← h.config_eq]
    exact (map_eq_of_rel (rel_getElem? h.compilation.types u.owner) fun hd =>
      ClassUnit.render_respelled hd x.config u).symm
  constructor
  · unfold generate
    dsimp only
    rw [List.flatMap_def, List.flatMap_def, hadditions]
    exact List.filterMap_congr fun u _ => hunit u
  · unfold generate
    dsimp only
    rw [List.map_flatMap, List.map_flatMap, List.flatMap_def, List.flatMap_def, hheadings]

end Context.Respelled

/-- In the types of a program the types of members, bases, interfaces and constraints may be spelled
anew as far as they denote a declaration: with blanks around, with a question mark behind or with the
root mark in front, or without these. The types make a program again, and the run misses the same
host type, or it gives the same units and the same diagnostics up to their wording. -/
theorem generate_of_respelled_types {types types' : List TypeDecl} {mentions : List Mention}
    {c : Compilation} (config : Config) (hc : Compilation.ofTypes types mentions = .ok c)
    (h : List.Forall₂ (TypeDecl.Respelled c) types types') :
    ∃ c', Compilation.ofTypes types' mentions = .ok c' ∧
      Generation.Related Generation.SameUpToWording (Generation.ofCompilation c config)
        (Generation.ofCompilation c' config) := by
  obtain ⟨rfl, rfl⟩ := Compilation.ofTypes_eq_ok hc
  have hnames := map_eq_of_forall₂ h TypeDecl.Respelled.metadataName_eq
  have hdistinct := c.distinct
  rw [hnames] at hdistinct
  obtain ⟨c', hc'⟩ := Compilation.exists_ofTypes hdistinct c.mentions
  obtain ⟨rfl, hmentions⟩ := Compilation.ofTypes_eq_ok hc'
  have hrespelled : c.Respelled c' := ⟨h, hmentions.symm⟩
  have hsome (name : String) : (c.lookup name).isSome = (c'.lookup name).isSome := by
    have hlookup := hrespelled.lookup_rel name
    generalize c.lookup name = found, c'.lookup name = found' at hlookup ⊢
    cases hlookup <;> rfl
  refine ⟨c', hc', Generation.related_of_isSome_lookup hsome config ?_⟩
  rintro x x' rfl rfl hconfig hconfig'
  have hcontexts : x.Respelled x' := ⟨hconfig.trans hconfig'.symm, hrespelled⟩
  exact hcontexts.generate_sameUpToWording

/-- A small game whose class `Arena<T>` has a base, a constraint and a member of a node type and
implements an interface, each written as given; another member is of no type to fetch. -/
def arenaTypes (base constraint member interface : TypeRef) : List TypeDecl :=
  [{ name := "Node", namespaceName? := some "Godot" },
   { name := "Resource", namespaceName? := some "Godot" },
   { name := "IStage", namespaceName? := some "Game", kind := .interfaceType },
   { name := "Arena", namespaceName? := some "Game", base? := some base, interfaces := [interface],
     typeParameters := [{ name := "T", constraints := [constraint] }],
     fields :=
      [{ name := "_gate", type := member, attributes := [{ name := "OnReadyGet" }] },
       { name := "_guest", type := ⟨"T", false⟩, attributes := [{ name := "OnReadyFind" }] },
       { name := "_score", type := ⟨"int", false⟩, attributes := [{ name := "OnReadyGet" }] }] }]

/-- The types of the game as they are written at first. -/
def plainArenaTypes : List TypeDecl :=
  arenaTypes ⟨"Godot.Node", false⟩ ⟨"Godot.Node", false⟩ ⟨"Godot.Node", false⟩ ⟨"Game.IStage", false⟩

/-- The types of the game, spelled anew at each place. -/
def respelledArenaTypes : List TypeDecl :=
  arenaTypes (.ofText "global::Godot.Node") (.ofText "Godot.Node ?") (.ofText "\tglobal::Godot.Node? ")
    (.ofText " Game.IStage")

/-- The game may be spelled anew at all places. -/
theorem generate_of_respelled_arena :
    ∃ c, Compilation.ofTypes plainArenaTypes [{ name := "Game.Arena" }] = .ok c ∧
      List.Forall₂ (TypeDecl.Respelled c) plainArenaTypes respelledArenaTypes ∧
      ∃ c', Compilation.ofTypes respelledArenaTypes [{ name := "Game.Arena" }] = .ok c' ∧
        Generation.Related Generation.SameUpToWording (Generation.ofCompilation c {})
          (Generation.ofCompilation c' {}) := by
  have hdistinct : (plainArenaTypes.map TypeDecl.metadataName).Nodup := by decide +kernel
  obtain ⟨c, hc⟩ := Compilation.exists_ofTypes hdistinct [{ name := "Game.Arena" }]
  have hresolve (type : TypeRef) :
      c.resolve type = (scan? plainArenaTypes type.name).bind (plainArenaTypes[·]?) := by
    rw [Compilation.resolve, c.lookup_eq_scan, (Compilation.ofTypes_eq_ok hc).1]
  have hnode : c.resolve ⟨"Godot.Node", false⟩ =
      some { name := "Node", namespaceName? := some "Godot" } := by
    rw [hresolve]
    decide +kernel
  have hstage : c.resolve ⟨"Game.IStage", false⟩ =
      some { name := "IStage", namespaceName? := some "Game", kind := .interfaceType } := by
    rw [hresolve]
    decide +kernel
  -- A text spells a core when it is put together of the core and the parts around it.
  have spells (type : TypeRef) (text : String) (front mark gap question back : List Char)
      (htext : text.toList = front ++ (mark ++ type.name.toList) ++ gap ++ question ++ back)
      (hmark : mark = [] ∨ mark = rootMark) (hquestion : question = [] ∨ question = ['?'])
      (hblank : Text.Blank front ∧ Text.Blank gap ∧ Text.Blank back) :
      Spells type.name.toList text.toList :=
    htext ▸ .intro front mark gap question back hblank.1 hmark hblank.2.1 hquestion hblank.2.2
  have respelled {d : TypeDecl} (type : TypeRef) (text : String) (hd : c.resolve type = some d)
      (hcore : IsCore type.name.toList ∧ type = .ofText type.name)
      (htext : Spells type.name.toList text.toList) : type.Respelled c (.ofText text) :=
    .spelled hd (TypeRef.sameCore_of_spells hcore.1 hcore.2 htext)
  have hnodeCore : IsCore "Godot.Node".toList ∧
      ⟨"Godot.Node", false⟩ = TypeRef.ofText "Godot.Node" := by
    decide +kernel
  have hstageCore : IsCore "Game.IStage".toList ∧
      ⟨"Game.IStage", false⟩ = TypeRef.ofText "Game.IStage" := by
    decide +kernel
  have hbase := respelled _ _ hnode hnodeCore
    (spells _ "global::Godot.Node" [] rootMark [] [] [] (by decide +kernel) (.inr rfl) (.inl rfl)
      (by decide))
  have hconstraint := respelled _ _ hnode hnodeCore
    (spells _ "Godot.Node ?" [] [] [' '] ['?'] [] (by decide +kernel) (.inl rfl) (.inr rfl)
      (by decide))
  have hmember := respelled _ _ hnode hnodeCore
    (spells _ "\tglobal::Godot.Node? " ['\t'] rootMark [] ['?'] [' '] (by decide +kernel) (.inr rfl)
      (.inr rfl) (by decide))
  have hinterface := respelled _ _ hstage hstageCore
    (spells _ " Game.IStage" [' '] [] [] [] [] (by decide +kernel) (.inl rfl) (.inl rfl)
      (by decide))
  have harena : List.Forall₂ (TypeDecl.Respelled c) plainArenaTypes respelledArenaTypes :=
    .cons (.refl c _) <| .cons (.refl c _) <| .cons (.refl c _) <| .cons
      { base := .some hbase
        interfaces := .cons hinterface .nil
        typeParameters := .cons ⟨.cons hconstraint .nil, rfl⟩ .nil
        fields := .cons ⟨hmember, rfl⟩ (.cons ⟨.same _, rfl⟩ (.cons ⟨.same _, rfl⟩ .nil))
        properties := .nil
        rest := rfl } .nil
  exact ⟨c, hc, harena, generate_of_respelled_types {} hc harena⟩

end SceneWiring
