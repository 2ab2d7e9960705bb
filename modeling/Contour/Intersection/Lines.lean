import Contour.Checked
import Contour.Intersection.Basic

/-!
# Two lines

* `Line.intersectParallel` — the common run of parallel lines, if they lie on one straight line.
* `Line.intersectCrossing` — the common point of lines that are not parallel.
* `Line.intersect` — the intersection of two lines.
-/

namespace Contour.Line

variable {α : Type} [Add α] [Sub α] [Mul α] [Div α] [Neg α] [LT α] [LE α] [DecidableLT α] [DecidableLE α]
  [BEq α] [OfNat α 0] [OfNat α 1] [OfScientific α] [Elementary α]

def along (l : Line α) : Point α := l.stop.sub l.start

/-- Parallel lines share a run of the first if the second starts on the straight line through it; a
run no longer than `tol` is reported as its middle. -/
def intersectParallel (a b : Line α) (tol : α) : Except (Fault α) (Intersection α) := do
  let d := a.along
  let w := b.start.sub a.start
  let length := d.mag
  let off ← quotient (Elementary.abs (d.crossXY w)) length
  if tol < off then return .miss
  else
    let first ← quotient (w.dot d) (length * length)
    let last ← quotient ((b.stop.sub a.start).dot d) (length * length)
    let low := Scalar.larger 0 (Scalar.smaller first last)
    let high := Scalar.smaller 1 (Scalar.larger first last)
    if (high - low) * length < -tol then return .miss
    else if (high - low) * length ≤ tol then
      return .crossing [a.start.lerp a.stop (0.5 * (low + high))]
    else return .run (a.start.lerp a.stop low) (a.start.lerp a.stop high)

/-- Lines that are not parallel share the point where their straight lines cross, if it lies on both
within `tol`. The point is taken on the first line. -/
def intersectCrossing (a b : Line α) (tol : α) : Except (Fault α) (Intersection α) := do
  let da := a.along
  let db := b.along
  let w := b.start.sub a.start
  let s ← quotient (w.crossXY db) (da.crossXY db)
  let t ← quotient (w.crossXY da) (da.crossXY db)
  let slackA ← quotient tol da.mag
  if s < -slackA || 1 + slackA < s then return .miss
  else
    let slackB ← quotient tol db.mag
    if t < -slackB || 1 + slackB < t then return .miss
    else return .crossing [a.start.lerp a.stop (Scalar.smaller (Scalar.larger s 0) 1)]

/-- The intersection of two lines. They are parallel if the sine of their angle is at most `tol`. -/
def intersect (a b : Line α) (tol : α) : Except (Fault α) (Intersection α) :=
  if Elementary.abs (a.along.crossXY b.along) ≤ tol * a.along.mag * b.along.mag then
    a.intersectParallel b tol
  else a.intersectCrossing b tol

end Contour.Line
