/-!
# Rounding of natural quotients

Every conversion between binary and decimal goes through one exact step on natural numbers.

* `twoTo`, `tenTo` — the powers of two and of ten.
* `roundHalfEven` — the nearest natural number to a quotient, a tie going to the even neighbour.
* `roundShift` — the same for a number times a power of two.
* `floorRoot` — the natural square root.
-/

namespace Contour

def twoTo (n : Nat) : Nat := Nat.pow 2 n

def tenTo (n : Nat) : Nat := Nat.pow 10 n

/-- The natural number nearest to `num / den`; a tie goes to the even neighbour. -/
def roundHalfEven (num den : Nat) : Nat :=
  let below := num / den
  let twice := 2 * (num % den)
  if twice < den then below
  else if den < twice then below + 1
  else if below % 2 = 0 then below
  else below + 1

/-- The natural number nearest to `n * 2 ^ shift`. -/
def roundShift (n : Nat) (shift : Int) : Nat :=
  if 0 ≤ shift then n * twoTo shift.toNat else roundHalfEven n (twoTo (-shift).toNat)

/-- Adds to `root` each power of two below `2 ^ bits` that keeps the square within `n`. -/
def rootBits (n : Nat) : Nat → Nat → Nat
  | 0, root => root
  | bits + 1, root =>
    let next := root + twoTo bits
    rootBits n bits (if next * next ≤ n then next else root)

/-- The largest natural number whose square is at most `n`. -/
def floorRoot (n : Nat) : Nat :=
  rootBits n (n.log2 / 2 + 1) 0

end Contour
