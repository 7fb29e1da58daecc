import SceneWiring.ClassUnit
import SceneWiring.Resolution
import SceneWiring.Snapshot
/-!
# Generation

A run goes over the classes met in the source, resolves each declared one once, and writes one unit
for every class that has additions. Classes nested in others are reported instead.
-/

namespace SceneWiring

/-- A class met in the source for the first time, or a name that denotes no declared type. -/
structure Visit where
  /-- The mention of the class. -/
  mention : Mention
  /-- The declared type that it denotes. -/
  decl? : Option TypeDecl
deriving DecidableEq, Repr

/-- The mentions that are looked at, given the metadata names of the types met before. Further
mentions of a type are passed over. -/
def Compilation.visitsAfter (c : Compilation) (met : List String) : List Mention → List Visit
  | [] => []
  | m :: rest =>
    match c.lookup m.name with
    | none => ⟨m, none⟩ :: c.visitsAfter met rest
    | some d =>
      if d.metadataName ∈ met then c.visitsAfter met rest
      else ⟨m, some d⟩ :: c.visitsAfter (d.metadataName :: met) rest

/-- The mentions that are looked at. -/
def Compilation.visits (c : Compilation) : List Visit := c.visitsAfter [] c.mentions

/-- The additions and diagnostics of a visit. -/
def Context.resolveVisit (x : Context) (v : Visit) : Resolution :=
  match v.decl? with
  | none =>
    .ofDiagnostics [(Cause.unresolvedClass v.mention.name).diagnosticAt v.mention.location]
  | some d =>
    let r := x.resolveClass d
    match d.nestedIn? with
    | some enclosing =>
      if r.additions.isEmpty then r
      else
        .ofDiagnostics (r.diagnostics ++
          [(Cause.nestedClass d.name enclosing).diagnosticAt v.mention.location])
    | none => r

/-- The outcome of a run. -/
structure Generation where
  /-- The generated units. -/
  units : List GeneratedUnit
  /-- The diagnostics. -/
  diagnostics : List Diagnostic
deriving DecidableEq, Repr

/-- The generated unit of a group of additions. -/
def Compilation.renderUnit? (c : Compilation) (config : Config) (u : ClassUnit) :
    Option GeneratedUnit :=
  (c.types[u.owner]?).map fun d => u.render config d

/-- What is generated when the host types are known. -/
def Context.generate (x : Context) : Generation :=
  let resolutions := x.compilation.visits.map x.resolveVisit
  { units :=
      (ClassUnit.group (resolutions.flatMap (·.additions))).filterMap
        (x.compilation.renderUnit? x.config)
    diagnostics := resolutions.flatMap (·.diagnostics) }

/-- The context of a compilation under some settings. -/
def Context.ofCompilation (c : Compilation) (config : Config) : Except Failure Context :=
  (HostTypes.find c config).map (⟨c, config, ·⟩)

/-- What is generated for a compilation under some settings. -/
def Generation.ofCompilation (c : Compilation) (config : Config) : Except Failure Generation :=
  (Context.ofCompilation c config).map (·.generate)

/-- The compilation and the settings of a snapshot. -/
def Snapshot.compile (s : Snapshot) : Except Failure (Compilation × Config) :=
  (Compilation.ofTypes s.types s.mentions).map (·, s.config)

/-- The compilation and the settings in a document. -/
def Compilation.ofDocument (document : Json.Document) : Except Failure (Compilation × Config) :=
  ((Snapshot.ofDocument document).mapError .malformed).bind Snapshot.compile

/-- What is generated for the snapshot in a document. -/
def Generation.ofDocument (document : Json.Document) : Except Failure Generation :=
  (Compilation.ofDocument document).bind fun (c, config) => Generation.ofCompilation c config

end SceneWiring
