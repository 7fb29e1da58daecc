import SceneWiring.CommandLine.Path
/-!
# Files and folders

What the program asks of a file system, and a file system that is a value: a set of folders and the
contents of files, each at its place below the root. A path is walked part by part, and each part is
looked up in a folder that is there.
-/

namespace SceneWiring.CommandLine

/-- Why a file operation fails. -/
inductive FileError where
  | notFound
  | exists
  | notFolder
  | isFolder
  | nameTooLong
  /-- A name holds the character of code zero. -/
  | zeroInName
  /-- Any other reason, in the words of the system. -/
  | other (reason : String)
deriving DecidableEq, Repr

/-- The wording of the reason. -/
def FileError.message : FileError → String
  | .notFound => "No such file or directory (os error 2)"
  | .exists => "File exists (os error 17)"
  | .notFolder => "Not a directory (os error 20)"
  | .isFolder => "Is a directory (os error 21)"
  | .nameTooLong => "File name too long (os error 36)"
  | .zeroInName => "file name contained an unexpected NUL byte"
  | .other reason => reason

/-- What the program asks of a file system. -/
class FileAccess (m : Type → Type) where
  /-- The content of a file. -/
  readText : String → m (Except FileError String)
  /-- Gives a file its content; the file need not be there before. -/
  writeText : String → String → m (Except FileError Unit)
  /-- Makes one folder. -/
  makeFolder : String → m (Except FileError Unit)
  /-- There is a folder at the path. -/
  isFolder : String → m Bool

/-- The names from the root to a file or folder. -/
abbrev Place := List String

/-- A file system. -/
structure FileTree where
  /-- The working folder. -/
  home : Place
  /-- The folders besides the root. -/
  folders : List Place
  /-- The files. -/
  files : List (Place × String)
deriving DecidableEq, Repr

namespace FileTree

/-- The most bytes that a name may have. -/
def maxName : Nat := 255

/-- The number of bytes from which on a path is too long. -/
def pathLimit : Nat := 4096

/-- There is a folder at the place. -/
def hasFolder (t : FileTree) (place : Place) : Bool := place.isEmpty || t.folders.contains place

/-- The content of the file at a place. -/
def content? (t : FileTree) (place : Place) : Option String := t.files.lookup place

/-- One step of a walk: the place of a part in the folder at a place. -/
def step (t : FileTree) (place : Place) (part : String) : Except FileError Place :=
  if (t.content? place).isSome then .error .notFolder
  else if !t.hasFolder place then .error .notFound
  else if part = "." then .ok place
  else if part = ".." then .ok place.dropLast
  else if maxName < part.utf8ByteSize then .error .nameTooLong
  else .ok (place ++ [part])

/-- The path taken apart, if the system takes it at all. -/
def accept (path : String) : Except FileError Path :=
  if '\x00' ∈ path.toList then .error .zeroInName
  else if pathLimit ≤ path.utf8ByteSize then .error .nameTooLong
  else if path = "" then .error .notFound
  else .ok (Path.ofText path)

/-- The place where a path starts. -/
def start (t : FileTree) (p : Path) : Place := if p.absolute then [] else t.home

/-- The place of a path. There may be nothing at the place, but the folder around it is there. -/
def locate (t : FileTree) (path : String) : Except FileError Place := do
  let p ← accept path
  let place ← p.parts.foldlM t.step (t.start p)
  if p.slashed && (t.content? place).isSome then .error .notFolder else .ok place

/-- Reads a file. -/
def read (t : FileTree) (path : String) : Except FileError String := do
  let place ← t.locate path
  match t.content? place with
  | some content => .ok content
  | none => .error (if t.hasFolder place then .isFolder else .notFound)

/-- The files with one more file, or with another content of it. -/
def setContent (place : Place) (content : String) :
    List (Place × String) → List (Place × String)
  | [] => [(place, content)]
  | (p, c) :: rest =>
    if p = place then (place, content) :: rest else (p, c) :: setContent place content rest

/-- Writes a file. -/
def write (t : FileTree) (path content : String) : Except FileError FileTree := do
  let place ← t.locate path
  if t.hasFolder place then .error .isFolder
  else .ok { t with files := setContent place content t.files }

/-- Makes a folder. A path that ends in dots or at the root names a folder that is there. -/
def addFolder (t : FileTree) (path : String) : Except FileError FileTree := do
  let p ← accept path
  match p.parts.getLast? with
  | none => .error .exists
  | some last =>
    let around ← p.parts.dropLast.foldlM t.step (t.start p)
    let place ← t.step around last
    if last = "." ∨ last = ".." then .error .exists
    else if (t.content? place).isSome || t.hasFolder place then .error .exists
    else .ok { t with folders := place :: t.folders }

/-- There is a folder at the path. -/
def folderAt (t : FileTree) (path : String) : Bool :=
  match t.locate path with
  | .ok place => t.hasFolder place
  | .error _ => false

/-- A file tree that is changed, or the reason why it stays as it is. -/
def update (change : FileTree → Except FileError FileTree) :
    StateM FileTree (Except FileError Unit) := fun t =>
  match change t with
  | .ok changed => (.ok (), changed)
  | .error e => (.error e, t)

instance : FileAccess (StateM FileTree) where
  readText path := fun t => (t.read path, t)
  writeText path content := update (·.write path content)
  makeFolder path := update (·.addFolder path)
  isFolder path := fun t => (t.folderAt path, t)

/-- The folders around a place, the root left out. -/
def foldersAround : Place → List Place
  | [] => []
  | [_] => []
  | name :: rest => [name] :: (foldersAround rest).map (name :: ·)

/-- A file tree of the given files in a working folder, with the folders around them. -/
def ofFiles (home : Place) (files : List (String × String)) : FileTree :=
  let placed := files.map fun (path, content) => (home ++ (Path.ofText path).parts, content)
  ⟨home, (home :: foldersAround home ++ placed.flatMap (foldersAround ·.1)).eraseDups, placed⟩

/-- The files in the working folder with the paths that lead to them from there. -/
def filesAtHome (t : FileTree) : List (String × String) :=
  t.files.filterMap fun (place, content) =>
    if t.home.isPrefixOf place then
      some ("/".intercalate (place.drop t.home.length), content)
    else none

end FileTree

end SceneWiring.CommandLine
