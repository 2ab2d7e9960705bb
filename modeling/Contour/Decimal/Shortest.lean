import Contour.Decimal.Basic

/-!
# The fewest digits that read back

A binary number of limited precision stands for every real number that rounds to it. The decimals
with `count` digits form a grid; the first grid with a point in that interval gives the shortest
text, and of two such points the nearer one is taken.

* `Decimal.Neighbourhood` — the interval of numbers that round to a binary number.
* `Decimal.shortest` — the decimal with the fewest digits inside it.
-/

namespace Contour.Decimal

/-- The numbers between `below / den` and `above / den`, which all round to `num / den`. -/
structure Neighbourhood where
  num : Nat
  den : Nat
  below : Nat
  above : Nat
  /-- Whether the two ends belong to it. -/
  closed : Bool

/-- The numbers that round to `mantissa * 2 ^ exponent`. At a power of two above the least
exponent the numbers below lie twice as densely. -/
def Neighbourhood.ofBinary (mantissa : Nat) (exponent least : Int) : Neighbourhood :=
  let (num, den) := ratio mantissa (exponent - 2)
  let unit := (ratio 1 (exponent - 2)).1
  let power := mantissa = twoTo 52 ∧ least < exponent
  { num := 4 * num
    den := den
    below := 4 * num - (if power then unit else 2 * unit)
    above := 4 * num + 2 * unit
    closed := mantissa % 2 = 0 }

/-- Whether the decimal lies in the interval. -/
def Neighbourhood.contains (i : Neighbourhood) (d : Decimal) : Bool :=
  let (n, m) := scale d.coefficient 1 d.exponent
  if i.closed then i.below * m ≤ n * i.den && n * i.den ≤ i.above * m
  else i.below * m < n * i.den && n * i.den < i.above * m

/-- The decimal inside the interval on the grid of `count` digits that is nearest to the number. -/
def Neighbourhood.nearest? (i : Neighbourhood) (count : Nat) : Option Decimal :=
  let exponent := leading i.num i.den - (count - 1 : Nat)
  let (n, d) := scale i.num i.den (-exponent)
  let close : Decimal := ⟨roundHalfEven n d, exponent⟩
  let down : Decimal := ⟨n / d, exponent⟩
  let up : Decimal := ⟨n / d + 1, exponent⟩
  [close, down, up].find? i.contains

/-- The decimal inside the interval with the fewest digits, at most `most`. -/
def Neighbourhood.shortest (i : Neighbourhood) (most : Nat) : Decimal :=
  ((List.range most).findSome? fun n => i.nearest? (n + 1)).getD (rounded most i.num i.den)

/-- The fewest digits that read back as the double `mantissa * 2 ^ exponent`. -/
def shortest (mantissa : Nat) (exponent : Int) : Decimal :=
  ((Neighbourhood.ofBinary mantissa exponent (-1074)).shortest 17).trim

end Contour.Decimal
