/-!
# Command-line arguments

The program has two commands, `generate` and `check`, with a few options each, and two switches that
may stand before or after the command. Arguments are read from left to right. A request for the
version or for help is answered as soon as it is met; anything that is not understood makes the whole
command line unusable.
-/

namespace SceneWiring.CommandLine

/-- How `check` writes its diagnostics. -/
inductive Format where
  | text
  | json
deriving DecidableEq, Repr, Inhabited

/-- What to do. -/
inductive Command where
  /-- Write the generated units into a folder. -/
  | generate (snapshot out : String) (config : Option String)
  /-- Only report diagnostics. -/
  | check (snapshot : String) (config : Option String) (format : Format)
deriving DecidableEq, Repr

/-- What a command line asks for. -/
inductive Invocation where
  | run (command : Command)
  | version
  | help
deriving DecidableEq, Repr

/-- The shape of an argument. -/
inductive Token where
  /-- Two dashes: only values follow. -/
  | escape
  /-- Two dashes, a name, and perhaps a value behind an equals sign. -/
  | long (name : List Char) (value : Option (List Char))
  /-- A dash and letters. -/
  | short (letters : List Char)
  /-- Anything else. -/
  | value (text : String)
deriving DecidableEq, Repr

/-- The text after the first equals sign, if there is one. -/
def afterEquals (text : List Char) : Option (List Char) :=
  match text.dropWhile (· != '=') with
  | [] => none
  | _ :: rest => some rest

/-- The shape of an argument. A single dash is a value. -/
def Token.ofArgument (argument : String) : Token :=
  match argument.toList with
  | ['-', '-'] => .escape
  | '-' :: '-' :: name => .long (name.takeWhile (· != '=')) (afterEquals name)
  | '-' :: letter :: letters => .short (letter :: letters)
  | _ => .value argument

/-- The commands by name. -/
inductive Verb where
  | generate
  | check
deriving DecidableEq, Repr

/-- The command of that name. -/
def Verb.ofWord? (word : String) : Option Verb :=
  if word = "generate" then some .generate else if word = "check" then some .check else none

/-- What an option stands for. -/
inductive Meaning where
  | verbose
  | quiet
  | version
  | help
  | out
  | config
  | format
deriving DecidableEq, Repr

/-- The meaning of a long option, before the command or after it. -/
def Meaning.ofLong? (verb? : Option Verb) (name : List Char) : Option Meaning :=
  let known : List (String × Meaning) :=
    [("verbose", .verbose), ("quiet", .quiet), ("help", .help)] ++
      match verb? with
      | none => [("version", .version)]
      | some .generate => [("out", .out), ("config", .config)]
      | some .check => [("config", .config), ("format", .format)]
  known.lookup (String.ofList name)

/-- The meaning of a short option, before the command or after it. -/
def Meaning.ofShort? (verb? : Option Verb) (letter : Char) : Option Meaning :=
  let known : List (Char × Meaning) :=
    [('v', .verbose), ('q', .quiet), ('h', .help)] ++
      match verb? with
      | none => [('V', .version)]
      | some .generate => [('o', .out)]
      | some .check => []
  known.lookup letter

/-- What the arguments have given so far. -/
structure Given where
  /-- The switch for more messages. -/
  verbose : Bool := false
  /-- The switch for fewer messages. -/
  quiet : Bool := false
  /-- The snapshot. -/
  snapshot : Option String := none
  /-- The output folder. -/
  out : Option String := none
  /-- The settings. -/
  config : Option String := none
  /-- The format of diagnostics. -/
  format : Option Format := none
deriving DecidableEq, Repr

namespace Given

/-- A path given for the first time; a path is not empty. -/
def givePath (old : Option String) (path : String) : Option (Option String) :=
  if old.isSome ∨ path = "" then none else some (some path)

/-- A snapshot is given. -/
def giveSnapshot (g : Given) (path : String) : Option Given :=
  (givePath g.snapshot path).map fun v => { g with snapshot := v }

/-- An option with a value is given. -/
def giveValue (g : Given) (meaning : Meaning) (value : String) : Option Given :=
  match meaning with
  | .out => (givePath g.out value).map fun v => { g with out := v }
  | .config => (givePath g.config value).map fun v => { g with config := v }
  | .format =>
    if g.format.isSome then none
    else if value = "text" then some { g with format := some .text }
    else if value = "json" then some { g with format := some .json }
    else none
  | .verbose | .quiet | .version | .help => none

/-- A switch is given. -/
def giveSwitch (g : Given) (meaning : Meaning) : Option Given :=
  match meaning with
  | .verbose => if g.verbose then none else some { g with verbose := true }
  | .quiet => if g.quiet then none else some { g with quiet := true }
  | .version | .help | .out | .config | .format => none

/-- The two switches do not go together. -/
def consistent (g : Given) : Bool := !(g.verbose && g.quiet)

/-- The command that the given values make up. -/
def command? (g : Given) (verb : Verb) : Option Command :=
  if g.consistent then
    g.snapshot.map fun snapshot =>
      match verb with
      | .generate => .generate snapshot (g.out.getD "generated") g.config
      | .check => .check snapshot g.config (g.format.getD .text)
  else none

end Given

/-- What one argument of options leads to. -/
inductive Reading where
  /-- Go on with the next argument. -/
  | proceed (given : Given)
  /-- The value of the option is the next argument. -/
  | await (given : Given) (meaning : Meaning)
  /-- The request is answered at once. -/
  | answer (invocation : Invocation)

/-- Reads a long option. Switches take no value. -/
def readLong (verb? : Option Verb) (g : Given) (name : List Char) (value : Option (List Char)) :
    Option Reading :=
  match Meaning.ofLong? verb? name, value with
  | none, _ => none
  | some .version, none => some (.answer .version)
  | some .help, none => some (.answer .help)
  | some meaning, none =>
    if meaning = .verbose ∨ meaning = .quiet then (g.giveSwitch meaning).map .proceed
    else some (.await g meaning)
  | some meaning, some value => (g.giveValue meaning (String.ofList value)).map .proceed

/-- The value that follows a letter directly; an equals sign in front is no part of it. -/
def attached : List Char → String
  | '=' :: rest => String.ofList rest
  | value => String.ofList value

/-- Reads the letters of short options. The letters after an option that takes a value are its
value. -/
def readShort (verb? : Option Verb) (g : Given) : List Char → Option Reading
  | [] => some (.proceed g)
  | letter :: rest =>
    match Meaning.ofShort? verb? letter with
    | none => none
    | some .version => some (.answer .version)
    | some .help => some (.answer .help)
    | some .verbose => (g.giveSwitch .verbose).bind (readShort verb? · rest)
    | some .quiet => (g.giveSwitch .quiet).bind (readShort verb? · rest)
    | some meaning =>
      if rest.isEmpty then some (.await g meaning)
      else (g.giveValue meaning (attached rest)).map .proceed

/-- Reads the arguments that are values only. -/
def readValues (verb : Verb) : Given → List String → Option Invocation
  | g, [] => (g.command? verb).map .run
  | g, value :: rest => (g.giveSnapshot value).bind (readValues verb · rest)

/-- Reads the arguments after the command. A value of an option does not look like an option. -/
def readCommand (verb : Verb) : Given → List String → Option Invocation
  | g, [] => (g.command? verb).map .run
  | g, argument :: rest =>
    let reading? :=
      match Token.ofArgument argument with
      | .escape => none
      | .long name value => readLong (some verb) g name value
      | .short letters => readShort (some verb) g letters
      | .value path => (g.giveSnapshot path).map .proceed
    if Token.ofArgument argument = .escape then readValues verb g rest
    else
      match reading?, rest with
      | none, _ => none
      | some (.answer invocation), _ => some invocation
      | some (.proceed g), rest => readCommand verb g rest
      | some (.await _ _), [] => none
      | some (.await g meaning), next :: rest =>
        match Token.ofArgument next with
        | .value value => (g.giveValue meaning value).bind (readCommand verb · rest)
        | _ => none

/-- The switches before the command hold for the command, if they go together. -/
def settle (g : Given) : Invocation → Option Invocation
  | .run command => if g.consistent then some (.run command) else none
  | other => some other

/-- Reads the arguments up to the command, and from there the rest. -/
def readTop : Given → List String → Option Invocation
  | _, [] => none
  | g, argument :: rest =>
    match Token.ofArgument argument with
    | .escape => none
    | .value word =>
      if word = "help" then
        match rest with
        | [] | ["help"] => some .help
        | [topic] => (Verb.ofWord? topic).map fun _ => .help
        | _ => none
      else (Verb.ofWord? word).bind fun verb => (readCommand verb {} rest).bind (settle g)
    | .long name value =>
      match readLong none g name value with
      | some (.proceed g) => readTop g rest
      | some (.answer invocation) => some invocation
      | _ => none
    | .short letters =>
      match readShort none g letters with
      | some (.proceed g) => readTop g rest
      | some (.answer invocation) => some invocation
      | _ => none

/-- What a command line asks for, if it is usable. -/
def Invocation.ofArguments? (arguments : List String) : Option Invocation := readTop {} arguments

end SceneWiring.CommandLine
