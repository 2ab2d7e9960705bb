import Contour.Segment.Measure
import Contour.Intersection.Circles

/-!
# Two curves

Curves on different circles share those crossing points of the circles that both of them cover. Arcs
on one circle share runs: the second arc is moved by whole turns next to the first, and what the two
ranges of angles have in common is compared.

* `Arc.Run`, `Arc.runs` — the common ranges of angles of two arcs on one circle.
* `Arc.overlap` — the longest common run, or the points where such arcs only touch.
* `Curve.intersect` — the intersection of two curves.
-/

namespace Contour

variable {α : Type} [Add α] [Sub α] [Mul α] [Div α] [Neg α] [LT α] [LE α] [DecidableLT α] [DecidableLE α]
  [BEq α] [OfNat α 0] [OfNat α 2] [OfScientific α] [Elementary α]

namespace Arc

/-- A range of angles of one arc that another arc, moved by `shift`, covers too. -/
structure Run (α : Type) where
  low : α
  high : α
  shift : α
  deriving Repr, DecidableEq

def Run.size (r : Run α) : α := r.high - r.low

/-- Whether a run is longer than another, or as long and nearer to angle zero. -/
def Run.exceeds (r s : Run α) : Bool :=
  if r.size == s.size then decide (-Angle.normalize s.low < -Angle.normalize r.low)
  else decide (s.size < r.size)

/-- The first of the greatest runs. -/
def Run.greatest? : List (Run α) → Option (Run α)
  | [] => none
  | r :: rest => some (rest.foldl (fun best s => if s.exceeds best then s else best) r)

/-- The common ranges of two arcs on one circle, with the second moved to the turn before and to the
turn after the start of the first. Ranges that miss each other by `tol` at most count as touching. -/
def runs (a b : Arc α) (tol : α) : List (Run α) :=
  let next := Angle.unwrapAfter b.startAngle a.startAngle - b.startAngle
  [next - Angle.turn, next].filterMap fun shift =>
    let run : Run α :=
      ⟨Scalar.larger a.startAngle (b.startAngle + shift), Scalar.smaller a.endAngle (b.endAngle + shift), shift⟩
    if -tol ≤ run.size * a.radius then some run else none

/-- The point of the common circle at an angle; an end of an arc within `tol` takes its place. -/
def pointAt (a b : Arc α) (shift angle tol : α) : Except (Fault α) (Point α) :=
  let ends := [(a.startAngle, a.start), (a.endAngle, a.stop),
    (b.startAngle + shift, b.start), (b.endAngle + shift, b.stop)]
  match ends.find? fun e => Elementary.abs (e.1 - angle) * a.radius ≤ tol with
  | some e => .ok e.2
  | none => a.center.polar a.radius angle

/-- The points where arcs on one circle only touch; two of them within `tol` are one. -/
def touching (a b : Arc α) (runs : List (Run α)) (tol : α) : Except (Fault α) (List (Point α)) := do
  match ← runs.mapM fun run => a.pointAt b run.shift (0.5 * (run.low + run.high)) tol with
  | [p, q] => return if p.dist q ≤ tol then [p] else [p, q]
  | points => return points

def overlap (a b : Arc α) (tol : α) : Except (Fault α) (Intersection α) := do
  let runs := a.runs b tol
  match Run.greatest? (runs.filter fun run => tol < run.size * a.radius) with
  | some run =>
    return .run (← a.pointAt b run.shift run.low tol) (← a.pointAt b run.shift run.high tol)
  | none => return .crossing ((Curve.arc a).orderAlong (← a.touching b runs tol))

end Arc

namespace Curve

/-- Whether both curves cover a direction; the second is asked only if the first does. -/
def bothCover (a b : Curve α) (tol : α) (p : Point α) : Except (Fault α) Bool := do
  if ← a.covers p tol then b.covers p tol else return false

/-- The intersection of two curves on the same circle. A circle shares all of an arc. -/
def intersectSame (a b : Curve α) (tol : α) : Except (Fault α) (Intersection α) :=
  match a, b with
  | circle _, b => .ok (.run b.start b.stop)
  | a, circle _ => .ok (.run a.start a.stop)
  | arc a, arc b => a.overlap b tol

/-- The intersection of two curves of which one at least is an arc. -/
def intersectArcs (a b : Curve α) (tol radiusTol : α) : Except (Fault α) (Intersection α) :=
  if a.support.same b.support radiusTol then a.intersectSame b tol
  else match a.support.position b.support radiusTol with
    | .apart => .ok .miss
    | .related flag => .ok (.flagged flag)
    | .crossing => do
      let points ← (← a.support.crossings b.support).filterM (a.bothCover b tol)
      return .crossing ((if a.isArc then a else b).orderAlong points)

def intersect (a b : Curve α) (tol radiusTol : α) : Except (Fault α) (Intersection α) :=
  match a, b with
  | circle a, circle b => a.intersect b radiusTol
  | a, b => a.intersectArcs b tol radiusTol

end Curve

end Contour
