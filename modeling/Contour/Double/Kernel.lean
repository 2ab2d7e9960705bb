import Contour.Scalar
import Contour.Double.Wide
import Contour.Double.Text
import Contour.Decimal.Reader

/-!
# Doubles as the kernel's numbers

The kernel runs on doubles. Roots, sines, cosines and angles are the machine's; remainders, ceilings
and conversions are computed on the exact parts of a double.

* `Double.divide` — the doubles that divide a range into equal steps.
* `instElementaryFloat`, `instWideningFloat`, `instDividingFloat`, `instTextualFloat` — what the kernel
  asks of its numbers.
-/

namespace Contour

instance instElementaryFloat : Elementary Float where
  pi := 3.141592653589793
  abs := Float.abs
  sqrt := Float.sqrt
  sin := Float.sin
  cos := Float.cos
  atan2 := Float.atan2
  modulo := Double.modulo
  ceil := Double.ceil
  ofInt := Double.ofInt
  isInfinite := Float.isInf
  isNaN := Float.isNaN

instance instWideningFloat : Widening Float where
  Wide := Double.Wide
  widen := Double.Wide.ofDouble
  narrow := Double.Wide.toDouble
  sqrt := Double.Wide.sqrt

/-- The doubles that divide a range into equal steps. Each is a multiple of the step above the start, and
the last is the end itself. Where the step vanishes, each is a share of the length above the start. -/
def Double.divide (start stop : Float) (n : Nat) : List Float :=
  let length := stop - start
  let step := length / Double.ofInt n
  let offset (i : Nat) : Float :=
    if step == 0 then Double.ofInt i / Double.ofInt n * length else Double.ofInt i * step
  (List.range n).map (fun i => offset i + start) ++ [stop]

instance instDividingFloat : Dividing Float where
  divide := Double.divide

instance instTextualFloat : Textual Float where
  read? := Decimal.read?
  shortest := Double.shortestText
  general := Double.generalText

end Contour
