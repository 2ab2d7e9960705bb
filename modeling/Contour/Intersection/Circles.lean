import Contour.Checked
import Contour.Intersection.Basic

/-!
# Two circles

Two circles are compared by the distance of their centers and their radii. Only when they neither
lie apart, coincide, touch, nor lie inside each other do they cross, and then in two points.

* `Circle.same` — whether two circles are the same within a tolerance.
* `Circle.Position`, `Circle.position` — how two circles lie to each other.
* `Circle.crossings` — the two points of crossing circles.
* `Circle.intersect` — the intersection of two full circles.
-/

namespace Contour

variable {α : Type} [Add α] [Sub α] [Mul α] [Div α] [LT α] [LE α] [DecidableLT α] [DecidableLE α] [BEq α]
  [OfNat α 0] [OfNat α 2] [Elementary α]

def Curve.support (c : Curve α) : Circle α := ⟨c.center, c.radius⟩

namespace Circle

inductive Position where
  | apart
  | related (flag : Intersection.Flag)
  | crossing
  deriving Repr, DecidableEq

/-- Whether centers and radii agree within `radiusTol`. -/
def same (a b : Circle α) (radiusTol : α) : Bool :=
  a.center.agrees b.center radiusTol && decide (Elementary.abs (a.radius - b.radius) < radiusTol)

/-- How two circles lie to each other, seen from the first. -/
def position (a b : Circle α) (radiusTol : α) : Position :=
  let d := a.center.dist b.center
  if a.radius + b.radius < d then .apart
  else if a.same b radiusTol then .related .identical
  else if Elementary.abs (d - a.radius - b.radius) < radiusTol then .related .tangent
  else if d ≤ Elementary.abs (a.radius - b.radius) then
    .related (if b.radius < a.radius then .encircles else .inside)
  else .crossing

/-- The two points of crossing circles, in order about the center of the first. The line through
them meets the line of the centers at the signed distance `along` from the first center, and they
lie at the distance `off` on either side. -/
def crossings (a b : Circle α) : Except (Fault α) (List (Point α)) := do
  let d := a.center.dist b.center
  let along ← quotient (d * d - b.radius * b.radius + a.radius * a.radius) (2 * d)
  let ux ← quotient (b.center.x - a.center.x) d
  let uy ← quotient (b.center.y - a.center.y) d
  let x := a.center.x + along * ux
  let y := a.center.y + along * uy
  let off := Elementary.sqrt (Scalar.larger (a.radius * a.radius - along * along) 0)
  return a.center.orderAbout [.planar (x - off * uy) (y + off * ux), .planar (x + off * uy) (y - off * ux)]

def intersect (a b : Circle α) (radiusTol : α) : Except (Fault α) (Intersection α) :=
  match a.position b radiusTol with
  | .apart => .ok .miss
  | .related flag => .ok (.flagged flag)
  | .crossing => do return .crossing (← a.crossings b)

end Circle

end Contour
