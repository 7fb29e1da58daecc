import Mathlib.Algebra.Order.Ring.Nat
import Mathlib.Tactic.Ring
import SceneWiring.Json.Numeral
/-!
# Numbers within range

A reader rounds the leading digits of a numeral and the power of ten, and multiplies. Each rounding
is off by at most one part in 2^53, and digits that are left out only lessen the number. Main
statement: no numeral is too large that stands for at most the floating-point number two steps below
the largest. The bound cannot be raised to the largest one: whether that is too large depends on how
it is spelled.
-/

namespace SceneWiring.Json

/-- All digits of a numeral. -/
def Numeral.digits (n : Numeral) : List Nat := n.whole ++ n.fraction.getD []

/-- The power of ten of the last digit. -/
def Numeral.power (n : Numeral) : Int := n.exponent.getD 0 - ((n.fraction.getD []).length : Nat)

/-- The number that the numeral stands for, without its sign, is at most the bound. -/
def Numeral.AtMost (bound : Nat) (n : Numeral) : Prop :=
  digitsValue n.digits * 10 ^ n.power.toNat ≤ bound * 10 ^ (-n.power).toNat

instance (bound : Nat) (n : Numeral) : Decidable (n.AtMost bound) :=
  inferInstanceAs (Decidable (_ ≤ _))

/-- The largest finite floating-point number. -/
def largestDouble : Nat := (2 ^ 53 - 1) * 2 ^ 971

/-- One more digit. -/
def appendDigit (value digit : Nat) : Nat := value * 10 + digit

/-- Further digits add to a number. -/
theorem le_foldl_appendDigit (value : Nat) (digits : List Nat) :
    value * 10 ^ digits.length ≤ digits.foldl appendDigit value := by
  induction digits generalizing value with
  | nil => simp
  | cons digit rest ih =>
    calc value * 10 ^ (rest.length + 1) = value * 10 * 10 ^ rest.length := by
          rw [Nat.pow_succ', Nat.mul_assoc]
      _ ≤ appendDigit value digit * 10 ^ rest.length :=
          Nat.mul_le_mul_right _ (Nat.le_add_right _ _)
      _ ≤ rest.foldl appendDigit (appendDigit value digit) := ih _

/-- Digits are collected from the front, until the next one would go beyond 64 bits. -/
theorem exists_absorb (coefficient : Nat) (digits : List Nat) :
    ∃ taken, digits = taken ++ (absorb coefficient digits).2 ∧
      (absorb coefficient digits).1 = taken.foldl appendDigit coefficient ∧
      (taken ≠ [] → (absorb coefficient digits).1 < 2 ^ 64) ∧
      ∀ digit ∈ (absorb coefficient digits).2.head?,
        2 ^ 64 ≤ appendDigit (absorb coefficient digits).1 digit := by
  induction digits generalizing coefficient with
  | nil => exact ⟨[], rfl, rfl, fun h => absurd rfl h, fun _ h => by cases h⟩
  | cons digit rest ih =>
    rw [absorb]
    split
    · rename_i hfits
      obtain ⟨taken, htaken, hvalue, hlt, hnext⟩ := ih (appendDigit coefficient digit)
      refine ⟨digit :: taken, congrArg (digit :: ·) htaken, hvalue, fun _ => ?_, hnext⟩
      by_cases hnil : taken = []
      · subst hnil
        exact hvalue ▸ hfits
      · exact hlt hnil
    · rename_i hbeyond
      refine ⟨[], rfl, rfl, fun h => absurd rfl h, fun d hd => ?_⟩
      obtain rfl : digit = d := Option.some.inj hd
      exact Nat.le_of_not_lt hbeyond

/-- Digits before the point that are left out only lessen the number. When one behind it is
collected all the same, it is less than the first left out, and no other follows. -/
theorem collected_le {whole coefficient : Nat} {left taken : List Nat}
    (hvalue : coefficient = taken.foldl appendDigit whole)
    (hlt : taken ≠ [] → coefficient < 2 ^ 64)
    (hnext : ∀ digit ∈ left.head?, 2 ^ 64 ≤ appendDigit whole digit) :
    coefficient * 10 ^ left.length ≤ taken.foldl appendDigit (left.foldl appendDigit whole) := by
  cases left with
  | nil => simp [hvalue]
  | cons digit rest =>
    cases taken with
    | nil =>
      rw [hvalue]
      exact le_foldl_appendDigit whole (digit :: rest)
    | cons digit' taken =>
      have hsmall : coefficient ≤ appendDigit whole digit :=
        (hlt (List.cons_ne_nil _ _)).le.trans (hnext digit rfl)
      have hten : 10 ≤ 10 ^ (digit' :: taken).length := by
        rw [List.length_cons, Nat.pow_succ]
        exact Nat.le_mul_of_pos_left 10 (Nat.pow_pos (by decide))
      calc coefficient * 10 ^ (rest.length + 1) = coefficient * 10 ^ rest.length * 10 := by
            rw [Nat.pow_succ, Nat.mul_assoc]
        _ ≤ appendDigit whole digit * 10 ^ rest.length * 10 :=
            Nat.mul_le_mul_right _ (Nat.mul_le_mul_right _ hsmall)
        _ ≤ (digit :: rest).foldl appendDigit whole * 10 ^ (digit' :: taken).length :=
            Nat.mul_le_mul (le_foldl_appendDigit _ rest) hten
        _ ≤ _ := le_foldl_appendDigit _ _

/-- The leading digits with their power of ten are at most the number. -/
theorem Numeral.exists_scaled (n : Numeral) :
    ∃ left : Nat, n.scaled.power = n.power + left ∧
      n.scaled.coefficient * 10 ^ left ≤ digitsValue n.digits := by
  obtain ⟨front, hwhole, hvalue, -, hnext⟩ := exists_absorb 0 n.whole
  obtain ⟨behind, hfraction, hvalue', hlt, -⟩ :=
    exists_absorb (absorb 0 n.whole).1 (n.fraction.getD [])
  have hpower : n.scaled.power = (absorb 0 n.whole).2.length -
      ((n.fraction.getD []).length -
        (absorb (absorb 0 n.whole).1 (n.fraction.getD [])).2.length : Nat) +
      n.exponent.getD 0 := rfl
  have hcoefficient : n.scaled.coefficient =
      (absorb (absorb 0 n.whole).1 (n.fraction.getD [])).1 := rfl
  have hdigits : digitsValue n.digits =
      (n.fraction.getD []).foldl appendDigit (n.whole.foldl appendDigit 0) := List.foldl_append
  rw [hpower, hcoefficient, hdigits, Numeral.power]
  generalize absorb (absorb 0 n.whole).1 (n.fraction.getD []) = fractionPart at *
  generalize absorb 0 n.whole = wholePart at *
  obtain ⟨whole, left⟩ := wholePart
  obtain ⟨coefficient, dropped⟩ := fractionPart
  dsimp only at *
  rw [hfraction]
  refine ⟨left.length + dropped.length, by rw [List.length_append]; omega, ?_⟩
  rw [hwhole, List.foldl_append, List.foldl_append, ← hvalue, Nat.pow_add, ← Nat.mul_assoc]
  exact (Nat.mul_le_mul_right _ (collected_le hvalue' hlt hnext)).trans
    (le_foldl_appendDigit _ dropped)

/-- The weight of the last bit that rounding keeps. -/
def roundUnit (n : Nat) : Nat := 2 ^ (Nat.log2 n + 1 - 53)

/-- The last bit kept is that of the units, or it is at most one part in 2^52. -/
theorem roundUnit_small (n : Nat) : roundUnit n = 1 ∨ roundUnit n * 2 ^ 52 ≤ n := by
  unfold roundUnit
  by_cases hshort : Nat.log2 n < 53
  · exact .inl (by rw [Nat.sub_eq_zero_of_le (by omega), Nat.pow_zero])
  · have hexponent : Nat.log2 n + 1 - 53 + 52 = Nat.log2 n := by omega
    refine .inr ?_
    rw [← Nat.pow_add, hexponent]
    refine Nat.log2_self_le ?_
    rintro rfl
    exact hshort (by decide)

/-- Rounding goes down, or up from at least half way. -/
theorem roundBits_cases (n : Nat) :
    roundBits n ≤ n ∨ roundUnit n ≤ 2 * (n % roundUnit n) ∧
      roundBits n = (n / roundUnit n + 1) * roundUnit n := by
  unfold roundBits
  change (if _ then _ else _) * roundUnit n ≤ n ∨ _ ∧ (if _ then _ else _) * roundUnit n = _
  split
  · rename_i hup
    refine .inr ⟨?_, rfl⟩
    simp only [Bool.or_eq_true, Bool.and_eq_true, decide_eq_true_eq] at hup
    rcases hup with hup | ⟨hup, -⟩
    · exact hup.le
    · exact hup.ge
  · exact .inl (Nat.div_mul_le_self n _)

/-- Rounding adds at most one part in 2^53. -/
theorem roundBits_le (n : Nat) : roundBits n * 2 ^ 53 ≤ n * (2 ^ 53 + 1) := by
  rcases roundBits_cases n with hle | ⟨hhalf, hup⟩
  · exact (Nat.mul_le_mul_right _ hle).trans (Nat.mul_le_mul_left n (Nat.le_succ _))
  · have hdiv := Nat.div_add_mod n (roundUnit n)
    rw [Nat.add_mul, Nat.one_mul, Nat.mul_comm] at hup
    rcases roundUnit_small n with hone | hpart
    · rw [hone, Nat.mod_one] at hhalf
      exact absurd hhalf (by decide)
    · have hstep : 2 * roundBits n ≤ 2 * n + roundUnit n := by omega
      calc roundBits n * 2 ^ 53 = 2 * roundBits n * 2 ^ 52 := by rw [Nat.pow_succ]; ring
        _ ≤ (2 * n + roundUnit n) * 2 ^ 52 := Nat.mul_le_mul_right _ hstep
        _ = n * 2 ^ 53 + roundUnit n * 2 ^ 52 := by rw [Nat.pow_succ]; ring
        _ ≤ n * (2 ^ 53 + 1) := by rw [Nat.mul_add_one]; exact Nat.add_le_add_left hpart _

/-- The floating-point number two steps below the largest. -/
def nearlyLargestDouble : Nat := (2 ^ 53 - 3) * 2 ^ 971

/-- The product of two rounded numbers is in range when the product of the numbers is at most the
floating-point number two steps below the largest. -/
theorem roundBits_mul_lt {a b : Nat} (h : a * b ≤ nearlyLargestDouble) :
    roundBits a * roundBits b < overflowBound := by
  have hbound : nearlyLargestDouble * ((2 ^ 53 + 1) * (2 ^ 53 + 1)) <
      overflowBound * (2 ^ 53 * 2 ^ 53) := by decide +kernel
  refine Nat.lt_of_mul_lt_mul_right (a := 2 ^ 53 * 2 ^ 53) ?_
  calc roundBits a * roundBits b * (2 ^ 53 * 2 ^ 53)
      = roundBits a * 2 ^ 53 * (roundBits b * 2 ^ 53) := Nat.mul_mul_mul_comm ..
    _ ≤ a * (2 ^ 53 + 1) * (b * (2 ^ 53 + 1)) := Nat.mul_le_mul (roundBits_le a) (roundBits_le b)
    _ = a * b * ((2 ^ 53 + 1) * (2 ^ 53 + 1)) := Nat.mul_mul_mul_comm ..
    _ ≤ nearlyLargestDouble * ((2 ^ 53 + 1) * (2 ^ 53 + 1)) := Nat.mul_le_mul_right _ h
    _ < _ := hbound

/-- A bound on the number bounds its leading digits with their power of ten. -/
theorem Numeral.AtMost.scaled_le {bound : Nat} {n : Numeral} (h : n.AtMost bound)
    (hpower : 0 ≤ n.scaled.power) :
    n.scaled.coefficient * 10 ^ n.scaled.power.toNat ≤ bound := by
  obtain ⟨left, heq, hle⟩ := n.exists_scaled
  have hsplit : n.scaled.power.toNat + (-n.power).toNat = left + n.power.toNat := by omega
  refine Nat.le_of_mul_le_mul_right (c := 10 ^ (-n.power).toNat) ?_ (Nat.pow_pos (by decide))
  calc n.scaled.coefficient * 10 ^ n.scaled.power.toNat * 10 ^ (-n.power).toNat
      = n.scaled.coefficient * 10 ^ left * 10 ^ n.power.toNat := by
        rw [Nat.mul_assoc, ← Nat.pow_add, hsplit, Nat.pow_add, Nat.mul_assoc]
    _ ≤ digitsValue n.digits * 10 ^ n.power.toNat := Nat.mul_le_mul_right _ hle
    _ ≤ bound * 10 ^ (-n.power).toNat := h

/-- No numeral is too large that stands for at most the floating-point number two steps below the
largest. -/
theorem Numeral.fault_eq_none_of_atMost {n : Numeral} (h : n.AtMost nearlyLargestDouble) :
    n.fault = none := by
  have htooLarge : n.tooLarge ≠ true := by
    intro hlarge
    simp only [tooLarge, Bool.and_eq_true, bne_iff_ne, Bool.or_eq_true, decide_eq_true_eq] at hlarge
    obtain ⟨hcoefficient, hmany | ⟨hpower, hoverflow⟩⟩ := hlarge
    · have hscaled := h.scaled_le (by omega)
      have hten : 10 ^ n.scaled.power.toNat ≤ nearlyLargestDouble :=
        (Nat.le_mul_of_pos_left _ (Nat.pos_of_ne_zero hcoefficient)).trans hscaled
      have hbeyond : nearlyLargestDouble < 10 ^ 309 := by decide +kernel
      have hmost := (Nat.pow_lt_pow_iff_right (by decide)).1 (hten.trans_lt hbeyond)
      omega
    · have hround := roundBits_mul_lt (h.scaled_le hpower)
      exact Nat.lt_irrefl _ (hround.trans_le hoverflow)
  simp [fault, htooLarge]

/-- Of two spellings of one number below the largest, one is too large and the other is not. -/
example :
    let short : Numeral :=
      ⟨false, [1, 7, 9, 7, 6, 9, 3, 1, 3, 4, 8, 6, 2, 3, 1, 5, 7], none, some 292⟩
    let long : Numeral := { short with whole := short.whole ++ [0, 0, 0], exponent := some 289 }
    short.AtMost largestDouble ∧ long.AtMost largestDouble ∧
      short.fault = none ∧ long.fault = some .malformed := by
  decide +kernel

end SceneWiring.Json
