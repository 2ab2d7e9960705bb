import Contour.Segment.Construct
import Contour.Segment.Measure

/-!
# Cutting segments

A segment is cut at one or two points that lie on it. The pieces come in the order in which the
segment was drawn, and cuts that are too close to an end or to each other make no piece.

* `keepApart` — the cuts that leave a gap before and after them.
* `Line.cut`, `Arc.cut`, `Circle.cut` — the pieces.
* `Segment.checkCuts` — refuses any other number of points, and points off the segment.
* `Segment.split` — the pieces of a segment, once its cuts are checked.
-/

namespace Contour

/-- The items that leave a gap to the last item kept and to `stop`, taken in order. -/
def keepApart {β : Type} (gap : β → β → Bool) (stop : β) : β → List β → List β
  | _, [] => []
  | last, item :: rest =>
    if gap last item && gap item stop then item :: keepApart gap stop item rest
    else keepApart gap stop last rest

def consecutive {β : Type} (items : List β) : List (β × β) := items.zip items.tail

variable {α : Type} [Add α] [Sub α] [Mul α] [Div α] [LT α] [LE α] [DecidableLT α] [DecidableLE α] [BEq α]
  [OfNat α 0] [OfNat α 1] [OfNat α 2] [OfScientific α] [Elementary α]

/-- The parts of a line between cuts that are more than `tol` apart. -/
def Line.cut (l : Line α) (points : List (Point α)) (tol : α) : Except (Fault α) (List (Line α)) := do
  let along := l.stop.sub l.start
  let params ← points.mapM fun p => quotient ((p.sub l.start).dot along) (along.dot along)
  let cuts := (Scalar.ordered id params).map (l.start.lerp l.stop)
  let gap (p q : Point α) : Bool := tol < p.dist q
  let inner := keepApart gap l.stop l.start cuts
  return (consecutive (l.start :: inner ++ [l.stop])).map fun ends => ⟨ends.1, ends.2⟩

/-- The counter-clockwise part of a circle between two angles and their points. Its angles start no
later than half a turn. -/
def Arc.piece (center : Point α) (radius : α) (angles : α × α) (ends : Point α × Point α) : Arc α :=
  let (first, last) := Angle.rewind angles.1 angles.2
  ⟨center, radius, ends.1, ends.2, first, last, false⟩

/-- The parts of an arc between cuts whose arc lengths exceed `tol`. Cuts are moved onto the circle,
and the end points are kept. -/
def Arc.cut (a : Arc α) (points : List (Point α)) (tol : α) : Except (Fault α) (List (Arc α)) := do
  let angles := points.map fun p => Angle.unwrapAfter (p.angleXY a.center) a.startAngle
  let gap (low high : α) : Bool := tol < a.radius * (high - low)
  let inner := keepApart gap a.endAngle a.startAngle (Scalar.ordered id angles)
  if inner.isEmpty then return [a]
  else
    let cuts ← inner.mapM fun angle => a.center.polar a.radius angle
    let spans := consecutive (a.startAngle :: inner ++ [a.endAngle])
    let ends := consecutive (a.start :: cuts ++ [a.stop])
    let pieces := List.zipWith (Arc.piece a.center a.radius) spans ends
    return if a.clockwise then pieces.reverse.map Arc.reverse else pieces

/-- The two arcs of a circle between two cuts; the whole circle if there is one cut, or if the second
follows the first within an arc length of `tol`. -/
def Circle.cut (c : Circle α) (points : List (Point α)) (tol : α) :
    Except (Fault α) (List (Curve α)) :=
  let angles := points.map fun p => Angle.unwrapAfter (p.angleXY c.center) 0
  match Scalar.ordered id angles with
  | [low, high] =>
    if c.radius * (high - low) ≤ tol then .ok [.circle c]
    else do
      let p ← c.center.polar c.radius low
      let q ← c.center.polar c.radius high
      let first ← Curve.ofEnds c.center p q false coincidentTol radiusTol
      let second ← Curve.ofEnds c.center q p false coincidentTol radiusTol
      return [first, second]
  | _ => .ok [.circle c]

namespace Segment

/-- Refuses more or fewer than one or two points, and points that are not on the segment. -/
def checkCuts (s : Segment α) (points : List (Point α)) (tol : α) : Except (Fault α) Unit := do
  if points.length < 1 || 2 < points.length then refuse (.cutCount points.length)
  else
    points.forM fun p => do
      if ← s.contains p tol then return ()
      else refuse (.cutOffSegment p.x p.y)

def cut (s : Segment α) (points : List (Point α)) (tol : α) : Except (Fault α) (List (Segment α)) :=
  match s with
  | line l => do return (← l.cut points tol).map line
  | curve (.arc a) => do return (← a.cut points tol).map (curve ∘ .arc)
  | curve (.circle c) => do return (← c.cut points tol).map curve

/-- The pieces of a segment that is cut at one or two points on it. -/
def split (s : Segment α) (points : List (Point α)) (tol : α) :
    Except (Fault α) (List (Segment α)) := do
  s.checkCuts points tol
  s.cut points tol

end Segment

end Contour
