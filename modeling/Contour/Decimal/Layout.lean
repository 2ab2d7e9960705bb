import Contour.Decimal.Basic

/-!
# Layouts of decimal text

A layout decides which decimals are written with all their places and which with an exponent.

* `Layout` — the decisions of a layout.
* `Layout.reading`, `Layout.general` — the layout that reads back, and the one of messages.
* `Layout.write` — the text of a signed decimal.
-/

namespace Contour

/-- How decimals are written. -/
structure Layout where
  /-- The least power of ten of a leading digit that is written positionally. -/
  least : Int
  /-- The power of ten of a leading digit from which on an exponent is written. -/
  limit : Int
  /-- Whether a whole number ends in a point and a zero. -/
  wholePoint : Bool

namespace Layout

/-- Numbers that are read back are positional below `10 ^ 16` and always show a point. -/
def reading : Layout := ⟨-4, 16, true⟩

/-- Numbers in messages have six digits, are positional below `10 ^ 6` and show no needless point. -/
def general : Layout := ⟨-4, 6, false⟩

/-- An exponent has a sign and at least two digits. -/
def exponentText (exponent : Int) : String :=
  let digits := toString exponent.natAbs
  "e" ++ (if exponent < 0 then "-" else "+") ++ (if digits.length < 2 then "0" ++ digits else digits)

/-- The digits with a point after the first `whole` of them, zeros filling up the whole part. -/
def positional (layout : Layout) (digits : List Char) (whole : Nat) : String :=
  let fraction := digits.drop whole
  let padding := List.replicate (whole - digits.length) '0'
  String.ofList (digits.take whole ++ padding) ++
    if fraction = [] then (if layout.wholePoint then ".0" else "")
    else "." ++ String.ofList fraction

/-- The first digit, a point before the others if there are any, and the exponent. -/
def scientific (digits : List Char) (exponent : Int) : String :=
  let fraction := digits.drop 1
  String.ofList (digits.take 1) ++
    (if fraction = [] then "" else "." ++ String.ofList fraction) ++ exponentText exponent

/-- The text of a decimal without trailing zeros. -/
def magnitude (layout : Layout) (d : Decimal) : String :=
  let digits := Nat.toDigits 10 d.coefficient
  let leading : Int := d.exponent + digits.length - 1
  if d.coefficient = 0 then if layout.wholePoint then "0.0" else "0"
  else if layout.least ≤ leading && leading < 0 then
    "0." ++ String.ofList (List.replicate (-leading - 1).toNat '0' ++ digits)
  else if 0 ≤ leading && leading < layout.limit then
    layout.positional digits (leading + 1).toNat
  else scientific digits leading

/-- The text of a signed decimal; a zero keeps its sign. -/
def write (layout : Layout) (negative : Bool) (d : Decimal) : String :=
  (if negative then "-" else "") ++ layout.magnitude d.trim

end Layout

end Contour
