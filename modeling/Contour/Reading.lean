import Contour.Fault

/-!
# Reading points and numbers

* `Datum.number` — the number that a datum stands for; texts are read.
* `Datum.operand`, `Datum.comparand` — the number that a datum is in a product, and in a comparison.
* `Datum.gap`, `Datum.less` — the distance of two data, and which is less; integers stay exact.
* `Datum.scalars` — the point with three given coordinates, which must be numbers.
* `Datum.toPoint` — the point that a datum stands for: a point, a list of coordinates, or the first
  coordinate alone.
-/

namespace Contour.Datum

variable {α : Type} [OfNat α 0] [OfNat α 1] [Elementary α]

/-- The number nearest to an integer, which must lie in the range of numbers. -/
def ofInteger (n : Int) : Except (Fault α) α :=
  let x : α := Elementary.ofInt n
  if Elementary.isInfinite x then .error .overflow else .ok x

def ofTruth (value : Bool) : α := if value then 1 else 0

/-- The number that a datum is in a product; texts are none. -/
def operand : Datum α → Except (Fault α) α
  | bool value => .ok (ofTruth value)
  | int n => ofInteger n
  | real x => .ok x
  | _ => .error .badShape

/-- The number that a datum is in a comparison, where an integer may exceed all numbers. -/
def comparand : Datum α → Except (Fault α) α
  | int n => .ok (Elementary.ofInt n)
  | d => operand d

/-- The integer or the number that a datum is; truth values are integers. -/
def numeral? : Datum α → Option (Int ⊕ α)
  | bool value => some (.inl (if value then 1 else 0))
  | int n => some (.inl n)
  | real x => some (.inr x)
  | _ => none

/-- The distance between two data that are numbers. Only two integers have an exact one, however large
they are. -/
def gap [Sub α] (a b : Datum α) : Except (Fault α) (Datum α) :=
  match a.numeral?, b.numeral? with
  | some (.inl m), some (.inl n) => return int (m - n).natAbs
  | some _, some _ => return real (Elementary.abs ((← a.operand) - (← b.operand)))
  | _, _ => .error .badShape

section Comparison

variable [LT α] [DecidableLT α]

/-- Whether an integer is less than a number, exactly. -/
def integerLess (n : Int) (x : α) : Bool :=
  !Elementary.isNaN x && if Elementary.isInfinite x then decide (0 < x) else decide (n < Elementary.ceil x)

/-- Whether a number is less than an integer, exactly. Where only its ceiling is the integer, the integer
is small enough to be a number itself. -/
def lessInteger (x : α) (n : Int) : Bool :=
  !Elementary.isNaN x &&
    if Elementary.isInfinite x then decide (x < 0)
    else decide (Elementary.ceil x < n) || decide (Elementary.ceil x = n ∧ x < Elementary.ofInt n)

/-- Whether one datum is less than another, if both are numbers. -/
def less (a b : Datum α) : Except (Fault α) Bool :=
  match a.numeral?, b.numeral? with
  | some (.inl m), some (.inl n) => return decide (m < n)
  | some (.inl m), some (.inr y) => return integerLess m y
  | some (.inr x), some (.inl n) => return lessInteger x n
  | some (.inr x), some (.inr y) => return decide (x < y)
  | _, _ => .error .badShape

end Comparison

variable [OfScientific α] [Textual α]

def number : Datum α → Except (Fault α) α
  | text s =>
    match Textual.read? s with
    | some x => .ok x
    | none => .error (.badValue (.unreadableNumber s))
  | d => operand d

/-- The point with the given coordinates, each of which must be a number. -/
def scalars (x y z : Datum α) : Except (Fault α) (Point α) :=
  if x.isNumber && y.isNumber && z.isNumber then do
    return ⟨← x.number, ← y.number, ← z.number⟩
  else .error (.badValue (.badCoordinates x y z))

/-- The point whose coordinates are listed; a third one may be left out, further ones are ignored. -/
def coordinates : List (Datum α) → Except (Fault α) (Point α)
  | x :: y :: rest => do return ⟨← x.number, ← y.number, ← (rest.head?.getD (real 0)).number⟩
  | given => .error (.badValue (.missingCoordinates given))

/-- The point that up to three data stand for; a point or a list stands for itself. -/
def pointOf (x y z : Datum α) : Except (Fault α) (Point α) :=
  match x with
  | point p => .ok p
  | list items => coordinates items
  | x => scalars x y z

def toPoint (d : Datum α) : Except (Fault α) (Point α) :=
  pointOf d (real 0) (real 0)

end Contour.Datum
