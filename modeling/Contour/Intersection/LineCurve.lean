import Contour.Segment.Measure
import Contour.Intersection.Basic

/-!
# A line and a curve

The points of a line at parameter `t`, counted from its end to its start, whose distance from a
center is a radius are the roots of a quadratic. Its coefficients are squares of lengths, so it is
solved in the wide type of the numbers.

* `Quadratic`, `Quadratic.ofLine` — the quadratic of a line and a circle.
* `Quadratic.discriminant`, `Quadratic.roots` — its solution.
* `Line.intersectCurve` — the intersection of a line and a curve.
-/

namespace Contour

open Widening (Wide widen narrow)

/-- The quadratic `a * t * t + b * t + c` in the wide type. -/
structure Quadratic (α : Type) [Widening α] where
  a : Wide α
  b : Wide α
  c : Wide α

variable {α : Type} [Add α] [Sub α] [Mul α] [Div α] [LT α] [LE α] [DecidableLT α] [DecidableLE α] [BEq α]
  [OfNat α 0] [OfNat α 1] [OfNat α 2] [Elementary α] [Widening α]

namespace Quadratic

/-- The square of the distance between a center and the point of a line at parameter `t` from its
end, less the square of a radius. -/
def ofLine (l : Line α) (center : Point α) (radius : α) : Quadratic α :=
  let v := l.start.sub l.stop
  let q := l.stop.sub center
  let (vx, vy, qx, qy, r) := (widen v.x, widen v.y, widen q.x, widen q.y, widen radius)
  { a := vx * vx + vy * vy
    b := 2 * (vx * qx + vy * qy)
    c := qx * qx + qy * qy - r * r }

def discriminant (q : Quadratic α) : Wide α := q.b * q.b - 4 * q.a * q.c

def isTangent (q : Quadratic α) (tol : α) : Bool :=
  let d := q.discriminant
  decide ((if d < 0 then -d else d) < widen tol)

/-- The roots of a quadratic whose discriminant is not negative, the larger one first. -/
def roots (q : Quadratic α) : Except (Fault α) (List α) := do
  let root := Widening.sqrt q.discriminant
  let high ← quotient (-q.b + root) (2 * q.a)
  let low ← quotient (-q.b - root) (2 * q.a)
  return [narrow high, narrow low]

end Quadratic

/-- The points of a line at the parameters between zero and one, counted from its end. -/
def Line.pointsAt (l : Line α) (params : List α) : List (Point α) :=
  (params.filter fun t => 0 ≤ t && t ≤ 1).map (l.stop.lerp l.start)

/-- The points on a circle, in order about its center; those on an arc, in order along it. -/
def Curve.select (c : Curve α) (points : List (Point α)) (tol : α) :
    Except (Fault α) (List (Point α)) :=
  match c with
  | circle k => .ok (k.center.orderAbout points)
  | arc a => do return (arc a).orderAlong (← points.filterM (a.covers · tol))

/-- The intersection of a line and a curve. A discriminant closer to zero than `radiusTol` counts as
a contact in one point. -/
def Line.intersectCurve (l : Line α) (c : Curve α) (tol radiusTol : α) :
    Except (Fault α) (Intersection α) :=
  let q := Quadratic.ofLine l c.center c.radius
  if q.isTangent radiusTol then .ok (.flagged .tangent)
  else if q.discriminant < 0 then .ok .miss
  else do return .crossing (← c.select (l.pointsAt (← q.roots)) tol)

end Contour
