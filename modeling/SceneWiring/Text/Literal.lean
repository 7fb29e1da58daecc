import SceneWiring.Text.Hex
/-!
# String literals of the generated language

A regular C# string literal stands between quotation marks. A quotation mark, a backslash and the
control characters are written as escapes, every other character as itself.
-/

namespace SceneWiring.Text

/-- A control character: the Unicode category Cc. -/
def isControl (c : Char) : Bool :=
  c.toNat < 0x20 || (0x7F ≤ c.toNat && c.toNat < 0xA0)

/-- What stands for one character between the quotation marks. -/
def escape (c : Char) : List Char :=
  if c = '"' then ['\\', '"']
  else if c = '\\' then ['\\', '\\']
  else if c = '\x00' then ['\\', '0']
  else if c = '\n' then ['\\', 'n']
  else if c = '\r' then ['\\', 'r']
  else if c = '\t' then ['\\', 't']
  else if isControl c then '\\' :: 'u' :: fourHexDigits c.toNat
  else [c]

/-- The characters of the literal for a text. -/
def literalChars (text : List Char) : List Char := '"' :: text.flatMap escape ++ ['"']

/-- The literal for a text, quotation marks included. -/
def literal (text : String) : String := String.ofList (literalChars text.toList)

/-- No escape holds a line feed or a carriage return, so a literal never breaks a line. -/
theorem escape_no_break (c : Char) : '\n' ∉ escape c ∧ '\r' ∉ escape c := by
  have hex := fourHexDigits_no_break c.toNat
  by_cases feed : c = '\n'
  · subst feed
    decide
  by_cases back : c = '\r'
  · subst back
    decide
  unfold escape
  repeat' split
  all_goals simp_all [Ne.symm]

end SceneWiring.Text
