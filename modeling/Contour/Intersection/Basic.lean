import Contour.Segment.Basic

/-!
# The result of an intersection

* `Intersection.Flag` — how two segments lie to each other, with `Flag.swap`.
* `Intersection` — the points that two segments share, and a flag. Flag and points both say something
  only when the segments share a whole run, whose ends are then the points.
* `Point.orderAbout`, `Curve.orderAlong` — the order in which points on a circle are reported.
-/

namespace Contour

/-- How two segments lie to each other. -/
inductive Intersection.Flag where
  /-- Nothing special: the points are all there is. -/
  | plain
  | identical
  /-- They touch in one point, which is not reported. -/
  | tangent
  /-- The second lies inside the circle of the first. -/
  | encircles
  /-- The first lies inside the circle of the second. -/
  | inside
  /-- They share a run, whose ends are the points. -/
  | edge
  deriving Repr, DecidableEq

namespace Intersection.Flag

def name : Flag → String
  | plain => "none"
  | identical => "identical"
  | tangent => "tangent"
  | encircles => "encircles"
  | inside => "inside"
  | edge => "edge"

/-- The flag after the two segments have changed places. -/
def swap : Flag → Flag
  | encircles => inside
  | inside => encircles
  | flag => flag

end Intersection.Flag

/-- The points that two segments share, and how they lie to each other. -/
structure Intersection (α : Type) where
  points : List (Point α)
  flag : Intersection.Flag
  deriving Repr, DecidableEq

namespace Intersection

variable {α : Type}

def miss : Intersection α := ⟨[], .plain⟩

def flagged (flag : Flag) : Intersection α := ⟨[], flag⟩

def crossing (points : List (Point α)) : Intersection α := ⟨points, .plain⟩

def run (first last : Point α) : Intersection α := ⟨[first, last], .edge⟩

/-- The points, one after the other. -/
def toList (r : Intersection α) : List (Point α) := r.points

def size (r : Intersection α) : Nat := r.points.length

def isHit (r : Intersection α) : Bool := 0 < r.size

def isFinding (r : Intersection α) : Bool := r.isHit || r.flag != .plain

end Intersection

/-! ## The order of points -/

section Order

variable {α : Type} [Add α] [Sub α] [Mul α] [Div α] [LT α] [LE α] [DecidableLT α] [DecidableLE α]
  [OfNat α 0] [OfNat α 2] [Elementary α]

/-- Two points in the order of their angles about a center, from angle zero on. -/
def Point.orderAbout (center : Point α) (points : List (Point α)) : List (Point α) :=
  Scalar.ordered (fun p => Angle.normalize (p.angleXY center)) points

/-- Two points in the order in which the counter-clockwise sweep of a curve meets them. -/
def Curve.orderAlong (c : Curve α) (points : List (Point α)) : List (Point α) :=
  Scalar.ordered (fun p => Angle.unwrapAfter (p.angleXY c.center) c.startAngle) points

end Order

end Contour
