import SceneWiring.Addition
import SceneWiring.Classification
import SceneWiring.Diagnostic
import SceneWiring.Naming
/-!
# Resolution of a class

The annotations of a class are judged one by one: those on the class itself first, then those on its
properties, fields and methods. Each gives an addition or a diagnostic. Of two members whose
companions would have the same name the first keeps it.
-/

namespace SceneWiring

/-- Where an annotation stands. -/
inductive Site where
  /-- The class itself. -/
  | type
  | member (member : Member)
  | method (method : Method)
deriving DecidableEq, Repr

/-- An annotation at its site. -/
structure Occurrence where
  /-- Where it stands. -/
  site : Site
  /-- The attribute as written. -/
  written : Attribute
  /-- What the attribute says. -/
  annotation : Annotation
deriving DecidableEq, Repr

namespace TypeDecl

/-- The sites of a type with the attributes that stand there, in the order of judgement. -/
def sites (d : TypeDecl) : List (Site × List Attribute) :=
  (Site.type, d.attributes) ::
    (d.properties.map fun m => (Site.member m, m.attributes)) ++
    (d.fields.map fun m => (Site.member m, m.attributes)) ++
    (d.methods.map fun m => (Site.method m, m.attributes))

/-- The annotations of a type in the order of judgement. -/
def occurrences (d : TypeDecl) : List Occurrence :=
  d.sites.flatMap fun (site, attributes) =>
    attributes.filterMap fun a => a.annotation?.map (⟨site, a, ·⟩)

end TypeDecl

/-- What is at a site. -/
def Site.target : Site → Target
  | .type => .type
  | .member _ => .member
  | .method _ => .method

/-- The name of what is at a site of a type. -/
def Site.name (owner : TypeDecl) : Site → String
  | .type => owner.name
  | .member m => m.name
  | .method m => m.name

/-- What an accepted annotation asks for. -/
structure Request where
  /-- The first rank among the statements of the class. -/
  order : Int := 0
  /-- What to generate. -/
  strategy : Strategy
deriving DecidableEq, Repr

namespace Context

/-- The slot for a member. -/
def slot (x : Context) (m : Member) (options : FetchOptions) : Slot where
  member := m.name
  type := x.compilation.display m.type
  stem := companionStem m.name
  fallback := options.fallback
  orNull := options.orNull
  hidden := options.hidden

/-- Judges a request for a node or resource. With a property the value is always read off a node. -/
def judgeGet (x : Context) (owner : TypeDecl) (m : Member) (options : FetchOptions) :
    Except Diagnostic Request :=
  let slot := x.slot m options
  match options.property with
  | some property => .ok { strategy := .getNode slot (some property) }
  | none =>
    let node := x.config.nodeType
    let resource := x.config.resourceType
    match x.classify owner m.type with
    | .path => .ok { strategy := .getNode slot none }
    | .resource => .ok { strategy := .loadResource slot x.config.editorHint }
    | .unsupported =>
      .error ((Cause.unsupportedType m.name m.type.name node resource).diagnosticAt m.location)
    | .ambiguous =>
      .error ((Cause.ambiguousType m.name m.type.name node resource).diagnosticAt m.location)

/-- Judges a request for a node by its name. Without a property the member has to be a node. -/
def judgeFind (x : Context) (owner : TypeDecl) (m : Member) (options : FetchOptions)
    (recursive owned : Bool) : Except Diagnostic Request :=
  if options.property.isNone ∧ x.classify owner m.type ≠ .path then
    .error ((Cause.findNeedsNode m.name m.type.name x.config.nodeType).diagnosticAt m.location)
  else .ok { strategy := .findNode (x.slot m options) options.property recursive owned }

/-- The members of an ancestor that a member can take its value from. -/
def sources (x : Context) (ancestor : TypeDecl) (type : TypeRef) : List Member :=
  (ancestor.members.map (·.2)).filter fun m => !m.implicit && x.assignable m.type type

/-- Judges a request for a value from an ancestor. The ancestor is of the type that the annotation
names, or else of the type of the member. The member takes the ancestor itself if its type denotes
the ancestor's, and else the only member of the ancestor that can be assigned to it. -/
def judgeInject (x : Context) (m : Member) (ancestorType ancestorName : Option String) :
    Except Diagnostic Request :=
  let memberType := x.compilation.resolve m.type
  let ancestor? :=
    match ancestorType with
    | some name => x.compilation.lookup name
    | none => memberType
  match ancestor? with
  | none =>
    .error ((Cause.unresolvedAncestor (ancestorType.getD m.type.name) m.name).diagnosticAt
      m.location)
  | some ancestor =>
    let inject (source : Option String) : Request :=
      { strategy := .injectAncestor m.name (ancestorName.getD ancestor.name)
          ("global::" ++ ancestor.fullName) source }
    if memberType.map TypeDecl.metadataName = some ancestor.metadataName then .ok (inject none)
    else
      match x.sources ancestor m.type with
      | [] =>
        .error ((Cause.noSource m.type.name ancestor.fullName m.name).diagnosticAt m.location)
      | [source] => .ok (inject (some source.name))
      | found =>
        .error ((Cause.manySources m.type.name ancestor.fullName m.name
          (found.map (·.name))).diagnosticAt m.location)

/-- Judges a request for a call. -/
def judgeCall (m : Method) (order : Int) : Except Diagnostic Request :=
  if m.params.isEmpty then .ok { order, strategy := .callMethod m.name }
  else .error ((Cause.takesParameters m.name m.params.length).diagnosticAt m.location)

/-- The fields that an enumeration of a class lists: static, read-only and not made by the
compiler. -/
def listedFields (owner : TypeDecl) : List String :=
  (owner.fields.filter fun m => m.isStatic && m.isReadonly && !m.implicit).map (·.name)

/-- Judges a request for an enumeration. -/
def judgeEnum (owner : TypeDecl) (name : Option String) (location : Location) :
    Except Diagnostic Request :=
  match name with
  | none => .error ((Cause.enumWithoutName owner.name).diagnosticAt location)
  | some enumName =>
    if owner.typeParameters.isEmpty then
      .ok { strategy := .selectorEnum owner.declaredName enumName (listedFields owner) }
    else .error ((Cause.enumOnGeneric owner.declaredName).diagnosticAt location)

/-- Judges an annotation by itself. -/
def judge (x : Context) (owner : TypeDecl) (o : Occurrence) : Except Diagnostic Request :=
  match o.site, o.annotation with
  | .member m, .get options => x.judgeGet owner m options
  | .member m, .find options recursive owned => x.judgeFind owner m options recursive owned
  | .member m, .injectAncestor ancestorType ancestorName =>
    x.judgeInject m ancestorType ancestorName
  | .method m, .onReady order => judgeCall m order
  | .type, .selectorEnum name => judgeEnum owner name o.written.location
  | site, annotation =>
    .error ((Cause.misplaced annotation.kind site.target (site.name owner)).diagnosticAt
      o.written.location)

end Context

/-- The additions and diagnostics of a class, with a map of the companions that are taken. -/
structure Resolution where
  /-- The additions, in order of discovery. -/
  additions : List Addition
  /-- The diagnostics, in order of discovery. -/
  diagnostics : List Diagnostic
  /-- The members that have companions, under the names of these. -/
  holders : List (String × String)
  /-- The companions taken are those of the additions. -/
  holders_eq : holders = additions.filterMap (·.strategy.claim?)
deriving DecidableEq, Repr

namespace Resolution

/-- The resolution with these diagnostics and no additions. -/
def ofDiagnostics (diagnostics : List Diagnostic) : Resolution := ⟨[], diagnostics, [], rfl⟩

/-- The resolution before any annotation has been judged. -/
def start : Resolution := ofDiagnostics []

/-- There are no additions beside the diagnostics. -/
@[simp]
theorem additions_ofDiagnostics (diagnostics : List Diagnostic) :
    (ofDiagnostics diagnostics).additions = [] :=
  rfl

/-- The diagnostics are the given ones. -/
@[simp]
theorem diagnostics_ofDiagnostics (diagnostics : List Diagnostic) :
    (ofDiagnostics diagnostics).diagnostics = diagnostics :=
  rfl

/-- There are no additions before any annotation has been judged. -/
@[simp]
theorem additions_start : start.additions = [] := rfl

/-- The member whose companion has that name. -/
def holder? (r : Resolution) (companion : String) : Option String :=
  r.holders.lookup companion

/-- The resolution with one more diagnostic. -/
def report (r : Resolution) (d : Diagnostic) : Resolution :=
  { r with diagnostics := r.diagnostics ++ [d] }

/-- The resolution with one more addition, whose companion is taken from now on. -/
def add (r : Resolution) (a : Addition) : Resolution where
  additions := r.additions ++ [a]
  diagnostics := r.diagnostics
  holders := r.holders ++ a.strategy.claim?.toList
  holders_eq := by
    rw [List.filterMap_append, ← r.holders_eq, List.filterMap_cons, List.filterMap_nil]
    cases a.strategy.claim? <;> rfl

/-- The resolution with one more addition for the class at a position. -/
def push (r : Resolution) (owner : Nat) (request : Request) : Resolution :=
  r.add ⟨owner, request.order, r.additions.length, request.strategy⟩

/-- An addition that is pushed has the next number. -/
theorem additions_push (r : Resolution) (owner : Nat) (request : Request) :
    (r.push owner request).additions =
      r.additions ++ [⟨owner, request.order, r.additions.length, request.strategy⟩] :=
  rfl

/-- The additions and the diagnostics determine a resolution. -/
theorem eq_of_lists {r r' : Resolution} (hadditions : r.additions = r'.additions)
    (hdiagnostics : r.diagnostics = r'.diagnostics) : r = r' := by
  obtain ⟨additions, diagnostics, _, rfl⟩ := r
  obtain ⟨additions', diagnostics', _, rfl⟩ := r'
  cases hadditions
  cases hdiagnostics
  rfl

/-- The holder of a companion depends on the additions alone. -/
theorem holder?_congr {r r' : Resolution} (h : r.additions = r'.additions) (companion : String) :
    r.holder? companion = r'.holder? companion := by
  rw [holder?, holder?, r.holders_eq, r'.holders_eq, h]

/-- The diagnostic about a request whose companion is already there. -/
def clash? (r : Resolution) (site : Site) (request : Request) : Option Diagnostic :=
  match request.strategy.companion?, site with
  | some companion, .member m =>
    (r.holder? companion).map fun holder =>
      (Cause.companionClash m.name companion holder).diagnosticAt m.location
  | _, _ => none

/-- The resolution after one more annotation of the class. -/
def step (x : Context) (owner : TypeDecl) (r : Resolution) (o : Occurrence) : Resolution :=
  match x.judge owner o with
  | .error d => r.report d
  | .ok request =>
    match r.clash? o.site request with
    | some d => r.report d
    | none => r.push (x.compilation.position owner) request

end Resolution

/-- The resolution of a class. -/
def Context.resolveClass (x : Context) (owner : TypeDecl) : Resolution :=
  owner.occurrences.foldl (Resolution.step x owner) .start

end SceneWiring
