import Contour.Checked
import Contour.Segment.Basic

/-!
# Measuring segments

* `Segment.length` — the length of a segment.
* `Segment.sample` — the point at a parameter, counter-clockwise on curves.
* `Segment.contains` — whether a point lies on a segment within a tolerance.
-/

namespace Contour

variable {α : Type} [Add α] [Sub α] [Mul α] [Div α] [LT α] [LE α] [DecidableLT α] [DecidableLE α] [BEq α]
  [OfNat α 0] [OfNat α 1] [OfNat α 2] [Elementary α]

namespace Segment

def length : Segment α → α
  | line l => l.start.dist l.stop
  | curve c => c.radius * (c.endAngle - c.startAngle)

/-- The point at parameter `u`, which runs from zero at the start to one at the end. -/
def sample : Segment α → α → Except (Fault α) (Point α)
  | line l, u => .ok (l.start.lerp l.stop u)
  | curve c, u => c.center.polar c.radius (c.startAngle + u * (c.endAngle - c.startAngle))

end Segment

/-- Whether a point lies within `tol` of a line. Beyond the ends only the ends count. -/
def Line.contains (l : Line α) (p : Point α) (tol : α) : Except (Fault α) Bool := do
  let along := l.stop.sub l.start
  let t ← quotient ((p.sub l.start).dot along) (along.dot along)
  if t < 0 || 1 < t then return p.dist l.start ≤ tol || p.dist l.stop ≤ tol
  else return p.dist (l.start.lerp l.stop t) ≤ tol

/-- Whether a direction lies on an arc, up to an angle of arc length `tol`. -/
def Arc.covers (a : Arc α) (p : Point α) (tol : α) : Except (Fault α) Bool := do
  let slack ← quotient tol a.radius
  return Angle.inRange (p.angleXY a.center) a.startAngle a.endAngle slack

/-- Whether a direction lies on a curve; a circle covers every direction. -/
def Curve.covers (c : Curve α) (p : Point α) (tol : α) : Except (Fault α) Bool :=
  match c with
  | arc a => a.covers p tol
  | circle _ => .ok true

/-- Whether a point lies within `tol` of a curve: its distance from the center is the radius, and its
direction lies on the curve. -/
def Curve.contains (c : Curve α) (p : Point α) (tol : α) : Except (Fault α) Bool :=
  if tol < Elementary.abs (p.dist c.center - c.radius) then .ok false else c.covers p tol

def Segment.contains : Segment α → Point α → α → Except (Fault α) Bool
  | line l, p, tol => l.contains p tol
  | curve c, p, tol => c.contains p tol

end Contour
