import Contour.Diagnostic.Draft
import Contour.Segment.Construct

/-!
# Reading segments

Segments are built from outside data, and what is refused is reported to a log. Data that cannot be
read at all fail without a report.

* `Segment.readLine` — the line between two points.
* `Segment.curveOf`, `Segment.readCurve` — the curve about a center from one point to another.
* `Segment.readCircle` — the circle about a center.
-/

namespace Contour.Segment

variable {α : Type} [Add α] [Sub α] [Mul α] [Div α] [LT α] [LE α] [DecidableLT α] [DecidableLE α] [BEq α]
  [OfNat α 0] [OfNat α 1] [OfNat α 2] [OfScientific α] [Elementary α] [Textual α]

def readLine (start stop : Datum α) (tol : α) : Reporting α (Segment α) := logged do
  let s ← start.toPoint
  let e ← stop.toPoint
  return line (← Line.ofEnds s e tol)

/-- Whether the radii of the two ends of a curve were compared: the last check before there is an arc. -/
def radiiCompared : Except (Fault α) (Curve α) → Bool
  | .ok (.arc _) => true
  | .ok (.circle _) => false
  | .error (.diagnosed refusal) => refusal.code = .radiusMismatch
  | .error _ => false

/-- What was drawn, where a mismatch of radii shows their tolerance as it was handed in. -/
def showing (radiusTol : Datum α) : Except (Fault α) (Curve α) → Except (Fault α) (Curve α)
  | .error (.diagnosed ⟨_, ⟨.radiusMismatch first second _, _, _⟩⟩) =>
    Draft.refuse (.radiusMismatch (.real first) (.real second) radiusTol)
  | drawn => drawn

/-- The curve about a center from one point to another. The tolerance for radii is looked at only if they
are compared. -/
def curveOf (c s e : Point α) (clockwise : Bool) (tol : α) (radiusTol : Datum α) :
    Except (Fault α) (Segment α) := do
  let drawn := Curve.ofEnds c s e clockwise tol (radiusTol.comparand.toOption.getD 0)
  if radiiCompared drawn then
    let _ ← radiusTol.comparand
  return curve (← showing radiusTol drawn)

def readCurve (center start stop : Datum α) (clockwise : Bool) (tol : α) (radiusTol : Datum α) :
    Reporting α (Segment α) := logged do
  let c ← center.toPoint
  let s ← start.toPoint
  let e ← stop.toPoint
  curveOf c s e clockwise tol radiusTol

/-- The circle about a center. The plane is checked before the radius is looked at, and an integer
radius beyond all numbers is refused last. -/
def readCircle (center radius : Datum α) (tol : α) : Reporting α (Segment α) := logged do
  let c ← center.toPoint
  if !c.isPlanar then refuse (.nonPlanar "circle")
  else
    let circle ← Circle.ofRadius c (← radius.comparand) tol
    let _ ← radius.operand
    return curve (.circle circle)

end Contour.Segment
