import Contour.Rounding

/-!
# Doubles as exact numbers

A finite double is a sign, a natural mantissa and a power of two. All text and all exact comparison
of doubles is computed on these parts, never through a rounded intermediate.

* `Double.parts` — the parts of a double.
* `Double.ofParts` — the double nearest to a signed mantissa times a power of two.
* `Double.ofInt` — the double nearest to an integer, an infinity beyond the range.
* `Double.ceil`, `Double.modulo` — exact ceiling, and remainder with the sign of the divisor.
-/

namespace Contour.Double

/-- What a double stands for: `(-1)^negative * mantissa * 2^exponent` when it is finite. -/
inductive Parts where
  | nan
  | infinite (negative : Bool)
  | finite (negative : Bool) (mantissa : Nat) (exponent : Int)
  deriving Repr, DecidableEq

def parts (x : Float) : Parts :=
  let bits : Nat := x.toBits.toNat
  let negative := decide (twoTo 63 ≤ bits)
  let biased : Nat := bits / twoTo 52 % twoTo 11
  let fraction : Nat := bits % twoTo 52
  if biased = 2047 then
    if fraction = 0 then .infinite negative else .nan
  else if biased = 0 then .finite negative fraction (-1074)
  else .finite negative (twoTo 52 + fraction) ((biased : Int) - 1075)

/-- The double with the given sign and magnitude bits. -/
def ofMagnitude (negative : Bool) (bits : Nat) : Float :=
  Float.ofBits (UInt64.ofNat (bits + if negative then twoTo 63 else 0))

def infinityBits : Nat := 2047 * twoTo 52

/-- The exponent of the last place of a double whose magnitude is `mantissa * 2 ^ exponent`. -/
def unitExponent (mantissa : Nat) (exponent : Int) : Int :=
  max (exponent + mantissa.log2 - 52) (-1074)

/-- The double nearest to `(-1)^negative * mantissa * 2^exponent`, an infinity beyond the range. -/
def ofParts (negative : Bool) (mantissa : Nat) (exponent : Int) : Float :=
  if mantissa = 0 then ofMagnitude negative 0
  else
    let unit := unitExponent mantissa exponent
    let bits := (unit + 1074).toNat * twoTo 52 + roundShift mantissa (exponent - unit)
    ofMagnitude negative (min bits infinityBits)

/-- The double nearest to an integer, an infinity beyond the range. -/
def ofInt (n : Int) : Float :=
  ofParts (decide (n < 0)) n.natAbs 0

/-- The quotient of `mantissa * 2 ^ exponent` by one, rounded upwards when `up` holds. -/
def integral (up : Bool) (mantissa : Nat) (exponent : Int) : Nat :=
  if 0 ≤ exponent then mantissa * twoTo exponent.toNat
  else
    let unit := twoTo (-exponent).toNat
    mantissa / unit + if up && mantissa % unit != 0 then 1 else 0

/-- The least integer not below a finite double; zero for the others. -/
def ceil (x : Float) : Int :=
  match parts x with
  | .finite true mantissa exponent => -(integral false mantissa exponent : Int)
  | .finite false mantissa exponent => integral true mantissa exponent
  | _ => 0

/-- The remainder of a division, with the sign of the divisor. It is exact when the operands agree
in sign; otherwise the divisor is added to the exact remainder and the sum rounded. -/
def modulo (x y : Float) : Float :=
  match parts x, parts y with
  | .finite xNegative xMantissa xExponent, .finite yNegative yMantissa yExponent =>
    let unit := min xExponent yExponent
    let divisor := yMantissa * twoTo (yExponent - unit).toNat
    let rest := xMantissa * twoTo (xExponent - unit).toNat % divisor
    if divisor = 0 then 0.0 / 0.0
    else if rest = 0 then ofMagnitude yNegative 0
    else if xNegative = yNegative then ofParts xNegative rest unit
    else ofParts xNegative rest unit + y
  | .finite xNegative _ _, .infinite yNegative =>
    if x == 0.0 then ofMagnitude yNegative 0 else if xNegative = yNegative then x else y
  | _, _ => 0.0 / 0.0

end Contour.Double
