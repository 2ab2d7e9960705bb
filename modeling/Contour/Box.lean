import Contour.Segment.Basic
import Contour.Fault

/-!
# Bounding boxes

A box is spanned by its lower left and its upper right corner, with sides along the axes.

* `Box` — the type, with its other corners and its sides.
* `Box.contains`, `Box.overlaps`, `Box.union` — points in a box, and two boxes.
* `Box.ofPoints` — the least box around points.
* `Segment.box` — the box of a segment.
* `Box.ofBoxes` — the box around boxes.
-/

namespace Contour

/-- The box between two corners. -/
structure Box (α : Type) where
  /-- The lower left corner. -/
  least : Point α
  /-- The upper right corner. -/
  greatest : Point α
  deriving Repr, DecidableEq

variable {α : Type} [Add α] [Sub α] [Mul α] [Neg α] [LT α] [LE α] [DecidableLT α] [DecidableLE α]
  [OfNat α 0] [OfNat α 1] [OfNat α 2] [OfScientific α] [Elementary α]

namespace Box

def topLeft (b : Box α) : Point α := .planar b.least.x b.greatest.y

def bottomRight (b : Box α) : Point α := .planar b.greatest.x b.least.y

def width (b : Box α) : α := b.greatest.x - b.least.x

def height (b : Box α) : α := b.greatest.y - b.least.y

/-- Whether a point lies in a box that is `tol` larger on every side. -/
def contains (b : Box α) (p : Point α) (tol : α) : Bool :=
  (b.least.x - tol ≤ p.x && p.x ≤ b.greatest.x + tol) &&
    (b.least.y - tol ≤ p.y && p.y ≤ b.greatest.y + tol)

/-- Whether two boxes are at most `tol` apart along both axes. -/
def overlaps (b c : Box α) (tol : α) : Bool :=
  !(b.greatest.x + tol < c.least.x || c.greatest.x < b.least.x - tol ||
    b.greatest.y + tol < c.least.y || c.greatest.y < b.least.y - tol)

def union (b c : Box α) : Box α :=
  { least := .planar (Scalar.smaller b.least.x c.least.x) (Scalar.smaller b.least.y c.least.y)
    greatest :=
      .planar (Scalar.larger b.greatest.x c.greatest.x) (Scalar.larger b.greatest.y c.greatest.y) }

/-- The least box around a point and further points. -/
def ofPoints (p : Point α) (rest : List (Point α)) : Box α :=
  let xs := rest.map Point.x
  let ys := rest.map Point.y
  { least := .planar (xs.foldl Scalar.smaller p.x) (ys.foldl Scalar.smaller p.y)
    greatest := .planar (xs.foldl Scalar.larger p.x) (ys.foldl Scalar.larger p.y) }

/-- The box around boxes, of which there must be one at least. -/
def ofBoxes : List (Box α) → Except (Fault α) (Box α)
  | [] => .error (.badValue .emptyOutline)
  | b :: rest => .ok (rest.foldl union b)

end Box

/-- The box of a line. A line that is upright within `tol` has its own ends as corners. -/
def Line.box (l : Line α) (tol : α) : Box α :=
  if Elementary.abs (l.start.x - l.stop.x) < tol then
    if l.stop.y < l.start.y then ⟨l.stop, l.start⟩ else ⟨l.start, l.stop⟩
  else .ofPoints l.start [l.stop]

/-- The four directions along the axes: an angle, and the displacement of unit length. -/
def axisDirections : List (α × α × α) :=
  [(0, 1, 0), (0.5 * Elementary.pi, 0, 1), (Elementary.pi, -1, 0), (1.5 * Elementary.pi, 0, -1)]

/-- The points of an arc that are extreme along an axis. -/
def Arc.extrema (a : Arc α) : List (Point α) :=
  (axisDirections.filter fun d => Angle.inRange d.1 a.startAngle a.endAngle 0).map fun d =>
    .planar (a.center.x + a.radius * d.2.1) (a.center.y + a.radius * d.2.2)

/-- The box of an arc: its ends, and the points that are extreme along an axis. -/
def Arc.box (a : Arc α) : Box α := .ofPoints a.start (a.stop :: a.extrema)

def Circle.box (c : Circle α) : Box α :=
  { least := .planar (c.center.x - c.radius) (c.center.y - c.radius)
    greatest := .planar (c.center.x + c.radius) (c.center.y + c.radius) }

def Segment.box (s : Segment α) (tol : α) : Box α :=
  match s with
  | line l => l.box tol
  | curve (.arc a) => a.box
  | curve (.circle c) => c.box

end Contour
