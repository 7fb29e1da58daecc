import SceneWiring.Json.Node
/-!
# What a numeral denotes

A numeral without point and power of ten denotes an integer when the integer fits 64 bits and is not
written `-0`; every other numeral denotes a binary floating-point number of 53 significant bits.
Its digits are collected into a coefficient of 64 bits and a power of ten, and the numeral is too
large when their product is at least the overflow bound of that format.
-/

namespace SceneWiring.Json

/-- A number rounded to its 53 highest bits, a half going to the even neighbour. -/
def roundBits (n : Nat) : Nat :=
  let unit := Nat.pow 2 (Nat.log2 n + 1 - 53)
  let low := n / unit
  let rest := n % unit
  let up := decide (unit < 2 * rest) || (decide (2 * rest = unit) && low % 2 == 1)
  (if up then low + 1 else low) * unit

/-- The least number that rounds beyond the largest finite one. -/
def overflowBound : Nat := (Nat.pow 2 54 - 1) * Nat.pow 2 970

/-- A coefficient and the power of ten it is multiplied by. -/
structure Scaled where
  /-- The coefficient, below 2^64. -/
  coefficient : Nat
  /-- The power of ten. -/
  power : Int

/-- Digits collected into a coefficient as long as it stays below 2^64, and the digits that no
longer fit. -/
def absorb (coefficient : Nat) : List Nat → Nat × List Nat
  | [] => (coefficient, [])
  | digit :: rest =>
    if coefficient * 10 + digit < Nat.pow 2 64 then absorb (coefficient * 10 + digit) rest
    else (coefficient, digit :: rest)

/-- The coefficient and power of a numeral. Each digit before the point that is not collected counts
one power up, each collected digit after it one power down. -/
def Numeral.scaled (n : Numeral) : Scaled :=
  let (whole, left) := absorb 0 n.whole
  let fraction := n.fraction.getD []
  let (coefficient, dropped) := absorb whole fraction
  ⟨coefficient, left.length - (fraction.length - dropped.length : Nat) + n.exponent.getD 0⟩

/-- The numeral denotes a number beyond the largest finite one. -/
def Numeral.tooLarge (n : Numeral) : Bool :=
  let s := n.scaled
  s.coefficient != 0 &&
    (decide (308 < s.power) ||
      (decide (0 ≤ s.power) &&
        decide (overflowBound ≤ roundBits s.coefficient * roundBits (Nat.pow 10 s.power.toNat))))

/-- The number that digits denote. -/
def digitsValue (digits : List Nat) : Nat := digits.foldl (fun value digit => value * 10 + digit) 0

/-- The integer that a numeral denotes, if it denotes one. -/
def Numeral.int? (n : Numeral) : Option Int :=
  if n.fraction.isSome || n.exponent.isSome then none
  else
    let magnitude := digitsValue n.whole
    if n.negative then
      if magnitude = 0 ∨ Nat.pow 2 63 < magnitude then none else some (-(magnitude : Int))
    else if magnitude < Nat.pow 2 64 then some (magnitude : Int) else none

/-- The fault met by a reader of the numeral. -/
def Numeral.fault (n : Numeral) : Option Fault :=
  if n.int?.isNone && n.tooLarge then some .malformed else none

end SceneWiring.Json
