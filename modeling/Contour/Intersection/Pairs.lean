import Contour.Intersection.Curves
import Contour.Intersection.LineCurve
import Contour.Intersection.Lines

/-!
# Intersections of segments

* `Segment.intersect` — the intersection of two segments of any kind.
* `pairs` — all pairs of a list, each item with those after it.
-/

namespace Contour

variable {α : Type} [Add α] [Sub α] [Mul α] [Div α] [Neg α] [LT α] [LE α] [DecidableLT α] [DecidableLE α]
  [BEq α] [OfNat α 0] [OfNat α 1] [OfNat α 2] [OfScientific α] [Elementary α] [Widening α]

def Segment.intersect (a b : Segment α) (tol radiusTol : α) : Except (Fault α) (Intersection α) :=
  match a, b with
  | line a, line b => a.intersect b tol
  | line a, curve b => a.intersectCurve b tol radiusTol
  | curve a, line b => b.intersectCurve a tol radiusTol
  | curve a, curve b => a.intersect b tol radiusTol

/-- Each item of a list paired with every item after it, in order. -/
def pairs {β : Type} : List β → List (β × β)
  | [] => []
  | item :: rest => rest.map (item, ·) ++ pairs rest

end Contour
