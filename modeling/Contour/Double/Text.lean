import Contour.Double.Parts
import Contour.Decimal.Shortest
import Contour.Decimal.Layout

/-!
# The text of doubles

* `Double.shortestText` — the fewest digits that read back.
* `Double.roundedText` — a given number of significant digits of the exact value, ties to even.
-/

namespace Contour.Double

/-- The text of a double whose nonzero magnitude `mantissa * 2 ^ exponent` is written as `decimal`
says. -/
def textWith (layout : Layout) (decimal : Nat → Int → Decimal) (x : Float) : String :=
  match parts x with
  | .nan => "nan"
  | .infinite negative => if negative then "-inf" else "inf"
  | .finite negative mantissa exponent =>
    layout.write negative (if mantissa = 0 then ⟨0, 0⟩ else decimal mantissa exponent)

def shortestText (x : Float) : String :=
  textWith .reading Decimal.shortest x

/-- The text of the exact value rounded to `count` significant digits. -/
def roundedText (layout : Layout) (count : Nat) (x : Float) : String :=
  textWith layout (fun mantissa exponent =>
    let (num, den) := Decimal.ratio mantissa exponent
    Decimal.rounded count num den) x

/-- The text of a number in a message: six significant digits. -/
def generalText (x : Float) : String :=
  roundedText .general 6 x

end Contour.Double
