import Contour.Double.Parts

/-!
# Doubles with an unbounded exponent

A quadratic in squared lengths leaves the range of doubles long before its roots do. These numbers
round every result to 53 bits, a tie going to the even neighbour, exactly as doubles do, but their
exponent has no bounds, so nothing overflows and nothing underflows. There is one zero.

* `Double.Wide` — the numbers, with `Wide.add`, `Wide.mul`, `Wide.div` and `Wide.sqrt`.
* `Wide.ofDouble`, `Wide.toDouble` — exact widening, and rounding back into the range.
-/

namespace Contour.Double

/-- A number `mantissa * 2 ^ exponent` of at most 53 bits, an infinity, or no number. -/
inductive Wide where
  | nan
  | infinite (negative : Bool)
  | finite (mantissa exponent : Int)
  deriving Repr

namespace Wide

/-- Rounds `mantissa * 2 ^ exponent` to 53 bits. -/
def round (mantissa exponent : Int) : Wide :=
  let excess := mantissa.natAbs.log2 - 52
  let rounded := roundHalfEven mantissa.natAbs (twoTo excess)
  if mantissa = 0 then finite 0 0
  else finite (if mantissa < 0 then -rounded else rounded) (exponent + excess)

def ofNat (n : Nat) : Wide := round n 0

/-- The same number as a double, exactly. -/
def ofDouble (x : Float) : Wide :=
  match parts x with
  | .nan => nan
  | .infinite negative => infinite negative
  | .finite negative mantissa exponent =>
    if mantissa = 0 then finite 0 0
    else finite (if negative then -mantissa else mantissa) exponent

def toDouble : Wide → Float
  | nan => 0.0 / 0.0
  | infinite negative => ofMagnitude negative infinityBits
  | finite mantissa exponent => ofParts (decide (mantissa < 0)) mantissa.natAbs exponent

/-- The integer `mantissa * 2 ^ exponent / 2 ^ unit`, for a unit no larger than the exponent. -/
def aligned (mantissa exponent unit : Int) : Int :=
  mantissa * twoTo (exponent - unit).toNat

def neg : Wide → Wide
  | nan => nan
  | infinite negative => infinite !negative
  | finite mantissa exponent => finite (-mantissa) exponent

/-- The rounded sum; opposite infinities have none. -/
def add : Wide → Wide → Wide
  | nan, _ | _, nan => nan
  | infinite a, infinite b => if a = b then infinite a else nan
  | infinite a, finite _ _ => infinite a
  | finite _ _, infinite b => infinite b
  | finite m e, finite n f =>
    let unit := min e f
    round (aligned m e unit + aligned n f unit) unit

/-- The rounded product; zero times an infinity has none. -/
def mul : Wide → Wide → Wide
  | nan, _ | _, nan => nan
  | infinite a, infinite b => infinite (a != b)
  | infinite a, finite n _ | finite n _, infinite a =>
    if n = 0 then nan else infinite (a != decide (n < 0))
  | finite m e, finite n f => round (m * n) (e + f)

/-- The rounded quotient by a number other than zero. -/
def div : Wide → Wide → Wide
  | nan, _ | _, nan => nan
  | infinite _, infinite _ => nan
  | infinite a, finite n _ => infinite (a != decide (n < 0))
  | finite _ _, infinite _ => finite 0 0
  | finite m e, finite n f =>
    let shift := 56 + n.natAbs.log2 - m.natAbs.log2
    let scaled := m.natAbs * twoTo shift
    let quotient := 2 * (scaled / n.natAbs) + if scaled % n.natAbs = 0 then 0 else 1
    round (if decide (m < 0) != decide (n < 0) then -quotient else quotient) (e - f - shift - 1)

/-- The rounded square root of a number that is not negative. -/
def sqrt : Wide → Wide
  | nan => nan
  | infinite negative => infinite negative
  | finite mantissa exponent =>
    let shift := 112 + (exponent % 2).toNat
    let scaled := mantissa.natAbs * twoTo shift
    let root := floorRoot scaled
    round (2 * root + if root * root = scaled then 0 else 1) ((exponent - shift) / 2 - 1)

def lt : Wide → Wide → Bool
  | nan, _ | _, nan => false
  | infinite a, infinite b => a && !b
  | infinite a, finite _ _ => a
  | finite _ _, infinite b => !b
  | finite m e, finite n f =>
    let unit := min e f
    aligned m e unit < aligned n f unit

/-- Whether two numbers are equal; what is no number equals nothing. -/
def beq : Wide → Wide → Bool
  | nan, _ | _, nan => false
  | infinite a, infinite b => a == b
  | finite m e, finite n f =>
    let unit := min e f
    aligned m e unit == aligned n f unit
  | _, _ => false

instance : Add Wide := ⟨add⟩
instance : Sub Wide := ⟨fun a b => add a (neg b)⟩
instance : Mul Wide := ⟨mul⟩
instance : Div Wide := ⟨div⟩
instance : Neg Wide := ⟨neg⟩
instance : LT Wide := ⟨fun a b => lt a b = true⟩
instance : BEq Wide := ⟨beq⟩
instance (n : Nat) : OfNat Wide n := ⟨ofNat n⟩

instance : DecidableLT Wide := fun a b => inferInstanceAs (Decidable (lt a b = true))

end Wide

end Contour.Double
