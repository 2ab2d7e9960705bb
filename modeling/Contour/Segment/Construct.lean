import Contour.Fault
import Contour.Segment.Basic

/-!
# Building segments

Segments are built from points of the plane `z = 0` and checked before they exist, so there is never a
segment that is valid in part only.

* `Line.ofEnds` — a line between two distinct points.
* `Curve.ofEnds` — an arc about a center from one point to another, a circle if they coincide.
* `Circle.ofRadius` — a circle about a center.
-/

namespace Contour

variable {α : Type} [Add α] [Sub α] [Mul α] [Div α] [LT α] [LE α] [DecidableLT α] [DecidableLE α] [BEq α]
  [OfNat α 0] [OfNat α 1] [OfNat α 2] [OfScientific α] [Elementary α]

/-- The line between two points, which must differ by more than `tol` in a coordinate. -/
def Line.ofEnds (start stop : Point α) (tol : α) : Except (Fault α) (Line α) :=
  if !(start.isPlanar && stop.isPlanar) then refuse (.nonPlanar "line")
  else if start.agrees stop tol then refuse (.degenerate "line")
  else .ok ⟨start, stop⟩

/-- The angles of an arc between two directions, in counter-clockwise order and unwrapped. -/
def Arc.angles (start stop : α) (clockwise : Bool) : α × α :=
  if clockwise then (stop, Angle.unwrapAfter start stop) else (start, Angle.unwrapAfter stop start)

/-- The curve about a center from one point to another. Points that coincide within `tol` give the
full circle; otherwise their radii may differ by `radiusTol` at most. -/
def Curve.ofEnds (center start stop : Point α) (clockwise : Bool) (tol radiusTol : α) :
    Except (Fault α) (Curve α) :=
  if !(center.isPlanar && start.isPlanar && stop.isPlanar) then refuse (.nonPlanar "arc")
  else if center.agrees start tol || center.agrees stop tol then refuse (.degenerate "arc")
  else
    let radius := start.dist center
    if start.agrees stop tol then .ok (.circle ⟨center, radius⟩)
    else
      let other := stop.dist center
      if radiusTol < Elementary.abs (other - radius) then
        refuse (.radiusMismatch radius other radiusTol)
      else
        let (first, last) := Arc.angles (start.angleXY center) (stop.angleXY center) clockwise
        .ok (.arc ⟨center, radius, start, stop, first, last, clockwise⟩)

/-- The circle about a center with a radius above `tol`. -/
def Circle.ofRadius (center : Point α) (radius tol : α) : Except (Fault α) (Circle α) :=
  if !center.isPlanar then refuse (.nonPlanar "circle")
  else if radius ≤ tol then refuse (.degenerate "circle")
  else .ok ⟨center, radius⟩

end Contour
