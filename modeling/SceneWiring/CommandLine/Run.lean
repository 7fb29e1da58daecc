import SceneWiring.CommandLine.Arguments
import SceneWiring.CommandLine.FileTree
import SceneWiring.Generation
/-!
# Running a command

A command reads a snapshot and perhaps settings, generates, and either writes one file for each unit
or only reports. Nothing is written unless everything has been read and generated. The exit status is
0, 1 when a diagnostic is an error, and 2 when the run stops.
-/

namespace SceneWiring.CommandLine

/-- What stops a command. -/
inductive RunError where
  | readingSnapshot (path : String) (error : FileError)
  | loadingSnapshot (path : String) (failure : Failure)
  | readingConfig (path : String) (error : FileError)
  | parsingConfig (path : String) (failure : Failure)
  | generating (failure : Failure)
  | creatingFolder (path : String) (error : FileError)
  | writing (path : String) (error : FileError)
deriving DecidableEq, Repr

/-- The wording of what stops a command. -/
def RunError.message : RunError → String
  | .readingSnapshot path e => "reading snapshot " ++ path ++ ": " ++ e.message
  | .loadingSnapshot path f => "loading snapshot " ++ path ++ ": " ++ f.message
  | .readingConfig path e => "reading config " ++ path ++ ": " ++ e.message
  | .parsingConfig path f => "parsing config " ++ path ++ ": " ++ f.message
  | .generating f => f.message
  | .creatingFolder path e => "creating output directory " ++ path ++ ": " ++ e.message
  | .writing path e => "writing " ++ path ++ ": " ++ e.message

/-- What a run leaves behind besides files. -/
structure Report where
  /-- The exit status. -/
  exit : Nat
  /-- The text on the standard output. -/
  stdout : String
  /-- The lines on the standard error output. -/
  stderr : List String
deriving DecidableEq, Repr

/-- The report of a run that has generated. -/
def Report.finished (g : Generation) (stdout : String) (stderr : List String) : Report :=
  ⟨if Diagnostic.hasErrors g.diagnostics then 1 else 0, stdout, stderr⟩

/-- The report of a run that was stopped. -/
def Report.stopped (e : RunError) : Report := ⟨2, "", ["error: " ++ e.message]⟩

/-- The name of the file for a unit. -/
def fileName (u : GeneratedUnit) : String := u.hintName ++ ".g.cs"

section

variable {m : Type → Type} [Monad m]

/-- An action whose error stops the command. -/
def attempt {ε α : Type} (wrap : ε → RunError) (action : m (Except ε α)) :
    ExceptT RunError m α :=
  ExceptT.mk do return (← action).mapError wrap

/-- A result whose error stops the command. -/
def demand {ε α : Type} (wrap : ε → RunError) (result : Except ε α) : ExceptT RunError m α :=
  ExceptT.mk (pure (result.mapError wrap))

variable [FileAccess m]

/-- Makes a folder and the folders around it as far as they are missing, in at most `fuel` steps
up. -/
def makeFolders : Nat → String → m (Except FileError Unit)
  | 0, _ => return .error .notFound
  | fuel + 1, path => do
    if path = "" then return .ok ()
    match ← FileAccess.makeFolder path with
    | .ok () => return .ok ()
    | .error .notFound =>
      match (Path.ofText path).parent? with
      | none => return .error .notFound
      | some parent =>
        match ← makeFolders fuel parent.render with
        | .error e => return .error e
        | .ok () =>
          match ← FileAccess.makeFolder path with
          | .ok () => return .ok ()
          | .error e => if ← FileAccess.isFolder path then return .ok () else return .error e
    | .error e => if ← FileAccess.isFolder path then return .ok () else return .error e

/-- Reads the snapshot and the settings laid over it, and generates. -/
def load (snapshot : String) (config? : Option String) : ExceptT RunError m Generation := do
  let text ← attempt (.readingSnapshot snapshot) (FileAccess.readText snapshot)
  let (c, config) ← demand (.loadingSnapshot snapshot) (Compilation.ofDocument (Json.parse text))
  let config ← match config? with
    | none => pure config
    | some path => do
      let text ← attempt (.readingConfig path) (FileAccess.readText path)
      demand (.parsingConfig path) ((config.overlay (Json.parse text)).mapError .malformed)
  demand .generating (Generation.ofCompilation c config)

/-- Writes the file for a unit into a folder. -/
def writeUnit (out : String) (u : GeneratedUnit) : ExceptT RunError m Unit :=
  let path := joinPath out (fileName u)
  attempt (.writing path) (FileAccess.writeText path u.text)

/-- Runs a command up to its report. -/
def perform : Command → ExceptT RunError m Report
  | .generate snapshot out config? => do
    let g ← load snapshot config?
    attempt (.creatingFolder out) (makeFolders (out.length + 1) out)
    g.units.forM (writeUnit out)
    return .finished g
      ("generated " ++ toString g.units.length ++ " file(s) into " ++ out ++ "\n")
      (g.diagnostics.map Diagnostic.render)
  | .check snapshot config? .text => do
    let g ← load snapshot config?
    return .finished g "" (g.diagnostics.map Diagnostic.render)
  | .check snapshot config? .json => do
    let g ← load snapshot config?
    return .finished g (Diagnostic.renderJson g.diagnostics ++ "\n") []

/-- Runs a command. -/
def run (command : Command) : m Report := do
  match ← (perform command).run with
  | .ok report => return report
  | .error e => return .stopped e

/-- The text that tells the version. -/
def versionText : String := "onready-gen 0.1.0\n"

/-- The text that tells how the program is used. -/
def helpText : String :=
  "Generate lifecycle partial classes from annotated members\n\n" ++
  "Usage: onready-gen [-v | -q] generate [-o OUT] [--config CONFIG] SNAPSHOT\n" ++
  "       onready-gen [-v | -q] check [--config CONFIG] [--format text|json] SNAPSHOT\n"

/-- The report of a command line that is not usable. -/
def Report.unusable : Report := ⟨2, "", ["error: unusable arguments", helpText]⟩

/-- Answers a command line. -/
def answer (arguments : List String) : m Report :=
  match Invocation.ofArguments? arguments with
  | none => return .unusable
  | some .version => return ⟨0, versionText, []⟩
  | some .help => return ⟨0, helpText, []⟩
  | some (.run command) => run command

end

end SceneWiring.CommandLine
