import SceneWiring.Json.Numeral
/-!
# Reading a text as JSON

The reader follows the text from left to right and always gives a tree. It takes space, tab, line
feed and carriage return between the parts of a value. Where the text stops being JSON the tree
records the fault, and nothing behind that place matters any more.
-/

namespace SceneWiring.Json

/-- A character that may stand between the parts of a value. -/
def isSpace (c : Char) : Bool := c == ' ' || c == '\t' || c == '\n' || c == '\r'

/-- The text from its first character that is no space on. -/
def skipSpaces : List Char → List Char
  | [] => []
  | c :: rest => if isSpace c then skipSpaces rest else c :: rest

/-- The value of a decimal digit. -/
def digit? (c : Char) : Option Nat :=
  if '0' ≤ c && c ≤ '9' then some (c.toNat - '0'.toNat) else none

/-- The digits at the front of a text, and the text after them. -/
def takeDigits : List Char → List Nat × List Char
  | [] => ([], [])
  | c :: rest =>
    match digit? c with
    | some d =>
      let (digits, more) := takeDigits rest
      (d :: digits, more)
    | none => ([], c :: rest)

/-- The fault of a text that lacks something here. -/
def missing (rest : List Char) : Fault := if rest.isEmpty then .cutShort else .malformed

/-- The digits before the point: a zero alone, or digits that do not start with zero. -/
def wholePart (text : List Char) : Except Fault (List Nat × List Char) :=
  match takeDigits text with
  | ([], rest) => .error (missing rest)
  | (0 :: _ :: _, _) => .error .malformed
  | (digits, rest) => .ok (digits, rest)

/-- The point and the digits after it, if there is a point. -/
def fractionPart : List Char → Except Fault (Option (List Nat) × List Char)
  | '.' :: rest =>
    match takeDigits rest with
    | ([], more) => .error (missing more)
    | (digits, more) => .ok (some digits, more)
  | text => .ok (none, text)

/-- A sign, if there is one: whether it is a minus, and the text after it. -/
def sign : List Char → Bool × List Char
  | '-' :: rest => (true, rest)
  | '+' :: rest => (false, rest)
  | text => (false, text)

/-- The power of ten, if there is one. -/
def exponentPart (text : List Char) : Except Fault (Option Int × List Char) :=
  match text with
  | c :: rest =>
    if c = 'e' ∨ c = 'E' then
      let (negative, rest) := sign rest
      match takeDigits rest with
      | ([], more) => .error (missing more)
      | (digits, more) =>
        let power : Int := digitsValue digits
        .ok (some (if negative then -power else power), more)
    else .ok (none, text)
  | [] => .ok (none, [])

/-- The numeral at the front of a text, and the text after it. -/
def parseNumeral (negative : Bool) (text : List Char) : Except Fault (Numeral × List Char) := do
  let (whole, text) ← wholePart text
  let (fraction, text) ← fractionPart text
  let (exponent, text) ← exponentPart text
  return (⟨negative, whole, fraction, exponent⟩, text)

/-- The number at the front of a text. An incomplete one at the end of the text is cut short for its
reader and malformed for one who skips it. -/
def parseNumber (negative : Bool) (text : List Char) : Node × List Char :=
  match parseNumeral negative text with
  | .ok (n, rest) => (.number n, rest)
  | .error fault => (.broken fault .malformed, [])

/-- The value that a word stands for, if the text goes on with the letters of the word. -/
def parseWord (value : Node) : List Char → List Char → Node × List Char
  | [], rest => (value, rest)
  | _ :: _, [] => (.broken .cutShort .cutShort, [])
  | letter :: letters, c :: rest =>
    if c = letter then parseWord value letters rest else (.broken .malformed .malformed, [])

/-- One step of a quoted text. -/
inductive Piece where
  /-- A character that stands for itself, or a simple escape. -/
  | char (c : Char)
  /-- A UTF-16 unit given by its four hexadecimal digits. -/
  | unit (code : Nat)
deriving DecidableEq, Repr

/-- The character that a backslash and a letter stand for. -/
def simpleEscape? (c : Char) : Option Char :=
  match c with
  | '"' => some '"'
  | '\\' => some '\\'
  | '/' => some '/'
  | 'b' => some '\x08'
  | 'f' => some '\x0c'
  | 'n' => some '\n'
  | 'r' => some '\r'
  | 't' => some '\t'
  | _ => none

/-- The value of a hexadecimal digit in either case. -/
def hexValue? (c : Char) : Option Nat :=
  if '0' ≤ c && c ≤ '9' then some (c.toNat - '0'.toNat)
  else if 'a' ≤ c && c ≤ 'f' then some (c.toNat - 'a'.toNat + 10)
  else if 'A' ≤ c && c ≤ 'F' then some (c.toNat - 'A'.toNat + 10)
  else none

/-- The number that four hexadecimal digits denote. -/
def hexUnit? (a b c d : Char) : Option Nat := do
  let a ← hexValue? a
  let b ← hexValue? b
  let c ← hexValue? c
  let d ← hexValue? d
  return ((a * 16 + b) * 16 + c) * 16 + d

/-- The pieces of a quoted text up to its closing mark, the fault that prevents the mark, and the
text after the mark. -/
structure Pieces where
  /-- The pieces, first one first. -/
  pieces : List Piece
  /-- Why there is no closing mark. -/
  fault : Option Fault
  /-- The text after the closing mark. -/
  rest : List Char

/-- One more piece in front. -/
def Pieces.push (piece : Piece) (p : Pieces) : Pieces := ⟨piece :: p.pieces, p.fault, p.rest⟩

/-- No piece and no closing mark. -/
def Pieces.fail (fault : Fault) : Pieces := ⟨[], some fault, []⟩

/-- The pieces of the quoted text that starts here, its opening mark taken. The four digits of a
UTF-16 unit are looked for in the next four bytes, so it is cut short when fewer are left. -/
def quotedPieces : List Char → Pieces
  | [] => .fail .cutShort
  | '"' :: rest => ⟨[], none, rest⟩
  | '\\' :: 'u' :: a :: b :: c :: d :: rest =>
    match hexUnit? a b c d with
    | some code => (quotedPieces rest).push (.unit code)
    | none => .fail .malformed
  | '\\' :: 'u' :: rest =>
    .fail (if (String.ofList rest).utf8ByteSize < 4 then .cutShort else .malformed)
  | '\\' :: c :: rest =>
    match simpleEscape? c with
    | some e => (quotedPieces rest).push (.char e)
    | none => .fail .malformed
  | ['\\'] => .fail .cutShort
  | c :: rest => if c.toNat < 0x20 then .fail .malformed else (quotedPieces rest).push (.char c)

/-- A leading half of a surrogate pair. -/
def isLeading (code : Nat) : Bool := 0xD800 ≤ code && code < 0xDC00

/-- A trailing half of a surrogate pair. -/
def isTrailing (code : Nat) : Bool := 0xDC00 ≤ code && code < 0xE000

/-- The characters that pieces stand for. A leading half has to be followed by a trailing one, and a
trailing half cannot stand elsewhere; what follows the pieces is the closing mark or a fault. -/
def assemble (fault : Option Fault) : List Piece → Except Fault (List Char)
  | [] =>
    match fault with
    | none => .ok []
    | some f => .error f
  | .char c :: rest => (assemble fault rest).map (c :: ·)
  | [.unit code] =>
    if isLeading code then .error (fault.getD .malformed)
    else if isTrailing code then .error .malformed
    else
      match fault with
      | none => .ok [Char.ofNat code]
      | some f => .error f
  | .unit code :: .unit second :: rest =>
    if isLeading code then
      if isTrailing second then
        (assemble fault rest).map
          (Char.ofNat ((code - 0xD800) * 0x400 + (second - 0xDC00) + 0x10000) :: ·)
      else .error .malformed
    else if isTrailing code then .error .malformed
    else (assemble fault (.unit second :: rest)).map (Char.ofNat code :: ·)
  | .unit code :: .char c :: rest =>
    if isLeading code || isTrailing code then .error .malformed
    else (assemble fault (.char c :: rest)).map (Char.ofNat code :: ·)

/-- The quoted text that starts here, its opening mark taken, and the text after it. -/
def parseQuoted (text : List Char) : Quoted × List Char :=
  let p := quotedPieces text
  (⟨(assemble p.fault p.pieces).map String.ofList, p.fault⟩, p.rest)

mutual

/-- The value at the front of a text and the text after it, in at most `fuel` steps. -/
def parseValue : Nat → List Char → Node × List Char
  | 0, _ => (.absent, [])
  | fuel + 1, text =>
    match skipSpaces text with
    | [] => (.absent, [])
    | c :: rest =>
      if c = '"' then
        let (q, rest) := parseQuoted rest
        (.text q, rest)
      else if c = '[' then parseArray fuel rest
      else if c = '\x7b' then parseObject fuel rest
      else if c = 'n' then parseWord .null ['u', 'l', 'l'] rest
      else if c = 't' then parseWord (.bool true) ['r', 'u', 'e'] rest
      else if c = 'f' then parseWord (.bool false) ['a', 'l', 's', 'e'] rest
      else if c = '-' then parseNumber true rest
      else if (digit? c).isSome then parseNumber false (c :: rest)
      else (.broken .malformed .malformed, [])

/-- The array whose opening bracket has been taken. -/
def parseArray : Nat → List Char → Node × List Char
  | 0, _ => (.absent, [])
  | fuel + 1, text =>
    match skipSpaces text with
    | [] => (.array [] (.stopped .cutShort .cutShort), [])
    | c :: rest =>
      if c = ']' then (.array [] .closed, rest)
      else
        let (item, rest) := parseValue fuel (c :: rest)
        let (items, ending, rest) := parseMoreItems fuel rest
        (.array (item :: items) ending, rest)

/-- The further items of an array, after one of them. -/
def parseMoreItems : Nat → List Char → List Node × Ending × List Char
  | 0, _ => ([], .stopped .cutShort .cutShort, [])
  | fuel + 1, text =>
    match skipSpaces text with
    | [] => ([], .stopped .cutShort .cutShort, [])
    | c :: rest =>
      if c = ']' then ([], .closed, rest)
      else if c = ',' then
        match skipSpaces rest with
        | [] => ([], .stopped .cutShort .malformed, [])
        | d :: rest =>
          if d = ']' then ([], .stopped .malformed .malformed, [])
          else
            let (item, rest) := parseValue fuel (d :: rest)
            let (items, ending, rest) := parseMoreItems fuel rest
            (item :: items, ending, rest)
      else ([], .stopped .malformed .malformed, [])

/-- The object whose opening bracket has been taken. -/
def parseObject : Nat → List Char → Node × List Char
  | 0, _ => (.absent, [])
  | fuel + 1, text =>
    match skipSpaces text with
    | [] => (.object [] (.stopped .cutShort .cutShort), [])
    | c :: rest =>
      if c = '\x7d' then (.object [] .closed, rest)
      else if c = '"' then
        let (fields, ending, rest) := parseField fuel rest
        (.object fields ending, rest)
      else (.object [] (.stopped .malformed .malformed), [])

/-- A field whose key has been opened, and the fields after it. -/
def parseField : Nat → List Char → List (Quoted × Node) × Ending × List Char
  | 0, _ => ([], .stopped .cutShort .cutShort, [])
  | fuel + 1, text =>
    let (key, rest) := parseQuoted text
    match key.skipped with
    | some fault => ([(key, .broken fault fault)], .stopped fault fault, [])
    | none =>
      match skipSpaces rest with
      | [] => ([(key, .absent)], .stopped .cutShort .cutShort, [])
      | c :: rest =>
        if c = ':' then
          let (v, rest) := parseValue fuel rest
          let (fields, ending, rest) := parseMoreFields fuel rest
          ((key, v) :: fields, ending, rest)
        else ([(key, .broken .malformed .malformed)], .stopped .malformed .malformed, [])

/-- The further fields of an object, after one of them. -/
def parseMoreFields : Nat → List Char → List (Quoted × Node) × Ending × List Char
  | 0, _ => ([], .stopped .cutShort .cutShort, [])
  | fuel + 1, text =>
    match skipSpaces text with
    | [] => ([], .stopped .cutShort .cutShort, [])
    | c :: rest =>
      if c = '\x7d' then ([], .closed, rest)
      else if c = ',' then
        match skipSpaces rest with
        | [] => ([], .stopped .cutShort .malformed, [])
        | d :: rest =>
          if d = '"' then parseField fuel rest
          else ([], .stopped .malformed .malformed, [])
      else ([], .stopped .malformed .malformed, [])

end

/-- The characters of a text read as JSON. Every second step takes a character, so the steps
suffice. -/
def parseChars (text : List Char) : Document :=
  let (root, rest) := parseValue (2 * text.length + 2) text
  ⟨root, !(skipSpaces rest).isEmpty⟩

/-- A text read as JSON. -/
def parse (text : String) : Document := parseChars text.toList

end SceneWiring.Json
