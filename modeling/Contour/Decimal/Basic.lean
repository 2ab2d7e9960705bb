import Contour.Rounding

/-!
# Decimal numbers

A decimal is a natural coefficient times a power of ten. Decimals are made from exact binary
fractions, so that no digit depends on a rounded intermediate.

* `Decimal.ratio` — a binary number as a quotient of natural numbers.
* `Decimal.leading` — the power of ten of the leading digit of a quotient.
* `Decimal.rounded` — the nearest decimal of a given number of digits, ties to even.
* `Decimal.trim` — the same decimal without trailing zeros.
-/

namespace Contour

/-- The number `coefficient * 10 ^ exponent`. -/
structure Decimal where
  coefficient : Nat
  exponent : Int
  deriving Repr, DecidableEq

namespace Decimal

/-- `mantissa * 2 ^ exponent` as a numerator and a denominator. -/
def ratio (mantissa : Nat) (exponent : Int) : Nat × Nat :=
  if 0 ≤ exponent then (mantissa * twoTo exponent.toNat, 1) else (mantissa, twoTo (-exponent).toNat)

/-- A quotient times a power of ten, as a numerator and a denominator. -/
def scale (num den : Nat) (power : Int) : Nat × Nat :=
  if 0 ≤ power then (num * tenTo power.toNat, den) else (num, den * tenTo (-power).toNat)

/-- The number of decimal digits of a natural number, one for zero. -/
def digitCount (n : Nat) : Nat := (Nat.toDigits 10 n).length

/-- The power of ten of the leading digit of a positive quotient. -/
def leading (num den : Nat) : Int :=
  let guess : Int := (digitCount num : Int) - digitCount den
  let (n, d) := scale num den (-guess)
  if d ≤ n then guess else guess - 1

/-- The decimal of `count` digits nearest to a positive quotient. -/
def rounded (count num den : Nat) : Decimal :=
  let exponent := leading num den - (count - 1 : Nat)
  let (n, d) := scale num den (-exponent)
  ⟨roundHalfEven n d, exponent⟩

/-- Moves trailing zeros of the coefficient into the exponent. -/
def trimmed (coefficient : Nat) (exponent : Int) : Decimal :=
  if h : coefficient ≠ 0 ∧ coefficient % 10 = 0 then trimmed (coefficient / 10) (exponent + 1)
  else ⟨coefficient, exponent⟩
termination_by coefficient
decreasing_by omega

def trim (d : Decimal) : Decimal := trimmed d.coefficient d.exponent

end Decimal

end Contour
