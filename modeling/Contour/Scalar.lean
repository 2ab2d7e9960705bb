/-!
# Scalars

The kernel computes with any type of numbers that has field operations, an order, a test of equality
and decimal literals. Definitions name these operations one by one, so that for the real numbers they
are the usual ones and for doubles the machine's.

* `Elementary` — what a type of numbers has beyond that: roots, angles, integers.
* `Widening` — a companion type whose range holds the squares of squared lengths.
* `Dividing` — numbers of which a range is divided into equal steps.
* `Textual` — numbers with a written form.
* `coincidentTol`, `radiusTol`, `extrusionTol` — the tolerances used when none is given.
* `Scalar.larger`, `Scalar.smaller` — the extreme of two numbers, the first one if neither wins.
* `Scalar.ordered` — at most two items in the order of a key.
-/

namespace Contour

/-- Functions of the kernel's numbers that are not field operations. -/
class Elementary (α : Type) where
  pi : α
  abs : α → α
  /-- The square root of a number that is not negative. -/
  sqrt : α → α
  sin : α → α
  cos : α → α
  /-- The angle of the direction with the given y and x, within half a turn of zero. -/
  atan2 : α → α → α
  /-- The remainder of a division, with the sign of the divisor. -/
  modulo : α → α → α
  ceil : α → Int
  /-- The number nearest to an integer, infinite if there is none. -/
  ofInt : Int → α
  isInfinite : α → Bool
  isNaN : α → Bool

/-- A type of numbers with the same precision and no bounds on size. -/
class Widening (α : Type) where
  Wide : Type
  widen : α → Wide
  narrow : Wide → α
  /-- The square root of a number that is not negative. -/
  sqrt : Wide → Wide
  [add : Add Wide]
  [sub : Sub Wide]
  [mul : Mul Wide]
  [div : Div Wide]
  [neg : Neg Wide]
  [lt : LT Wide]
  [decLt : DecidableLT Wide]
  [beq : BEq Wide]
  [zero : OfNat Wide 0]
  [two : OfNat Wide 2]
  [four : OfNat Wide 4]

attribute [reducible, instance] Widening.add Widening.sub Widening.mul Widening.div Widening.neg
  Widening.lt Widening.decLt Widening.beq Widening.zero Widening.two Widening.four

/-- A type of numbers that divide ranges. -/
class Dividing (α : Type) where
  /-- The numbers from a first to a last one that divide the range between them into so many equal
  steps. -/
  divide : α → α → Nat → List α

/-- Numbers that are read from text and written in messages. -/
class Textual (α : Type) where
  read? : String → Option α
  /-- The text with the fewest digits that reads back. -/
  shortest : α → String
  /-- The text with six digits that messages use. -/
  general : α → String

section Tolerances

variable {α : Type} [OfScientific α]

/-- Points closer than this are one point, directions closer than this are parallel. -/
def coincidentTol : α := 1e-8

/-- Radii closer than this agree, and circles closer than this touch. -/
def radiusTol : α := 1e-3

/-- The least usable height of an extrusion. -/
def extrusionTol : α := 1e-6

end Tolerances

namespace Scalar

variable {α : Type} [LT α] [DecidableLT α]

/-- The second number if it is larger, otherwise the first. -/
def larger (a b : α) : α := if a < b then b else a

/-- The second number if it is smaller, otherwise the first. -/
def smaller (a b : α) : α := if b < a then b else a

/-- At most two items in the order of their keys. They change places only if the second key is
smaller. -/
def ordered {β : Type} (key : β → α) : List β → List β
  | [a, b] => if key b < key a then [b, a] else [a, b]
  | items => items

end Scalar

end Contour
