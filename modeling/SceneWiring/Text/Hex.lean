/-!
# Hexadecimal digits

The digits with which escapes spell the code of a character.
-/

namespace SceneWiring.Text

/-- The lower-case hexadecimal digit of a number below sixteen. -/
def hexDigit (n : Nat) : Char := Char.ofNat (if n < 10 then 48 + n else 87 + n)

/-- The four lowest hexadecimal digits of a number. -/
def fourHexDigits (n : Nat) : List Char :=
  [hexDigit (n / 4096 % 16), hexDigit (n / 256 % 16), hexDigit (n / 16 % 16), hexDigit (n % 16)]

/-- A hexadecimal digit is a decimal digit or a letter, so it ends no line. -/
theorem hexDigit_ne_break (n : Nat) (h : n < 16) : hexDigit n ≠ '\n' ∧ hexDigit n ≠ '\r' :=
  (by decide : ∀ m < 16, hexDigit m ≠ '\n' ∧ hexDigit m ≠ '\r') n h

/-- Four hexadecimal digits end no line. -/
theorem fourHexDigits_no_break (n : Nat) : '\n' ∉ fourHexDigits n ∧ '\r' ∉ fourHexDigits n := by
  have digit (m : Nat) := hexDigit_ne_break (m % 16) (Nat.mod_lt m (by decide))
  constructor
  · simp [fourHexDigits, (digit _).1.symm]
  · simp [fourHexDigits, (digit _).2.symm]

end SceneWiring.Text
