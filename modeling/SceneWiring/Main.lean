import SceneWiring.CommandLine.Run
/-!
# The program

Runs a command line on the files of the system.
-/

namespace SceneWiring.CommandLine

/-- The file error for an error number of the system, which may come with its sign changed. -/
def fileErrorOfCode (code : UInt32) (reason : String) : FileError :=
  match min code.toNat (Nat.pow 2 32 - code.toNat) with
  | 2 => .notFound
  | 17 => .exists
  | 20 => .notFolder
  | 21 => .isFolder
  | 36 => .nameTooLong
  | _ => .other reason

/-- The file error for an error of the system. -/
def fileErrorOf (e : IO.Error) : FileError :=
  match e with
  | .noFileOrDirectory _ code reason => fileErrorOfCode code reason
  | .alreadyExists _ code reason => fileErrorOfCode code reason
  | .inappropriateType _ code reason => fileErrorOfCode code reason
  | .invalidArgument _ code reason => fileErrorOfCode code reason
  | .otherError code reason => fileErrorOfCode code reason
  | other => .other (toString other)

/-- The result of an action of the system. -/
def caught {α : Type} (action : IO α) : IO (Except FileError α) := do
  try return .ok (← action)
  catch e => return .error (fileErrorOf e)

instance : FileAccess IO where
  readText path := caught (IO.FS.readFile path)
  writeText path content := caught (IO.FS.writeFile path content)
  makeFolder path := caught (IO.FS.createDir path)
  isFolder path := do
    match ← caught (IO.FS.readFile path) with
    | .error .isFolder => return true
    | _ => return false

end SceneWiring.CommandLine

open SceneWiring.CommandLine

/-- Answers the command line and ends with the exit status of the report. -/
def main (arguments : List String) : IO UInt32 := do
  let report : Report ← answer arguments
  IO.print report.stdout
  report.stderr.forM IO.eprintln
  return UInt32.ofNat report.exit
