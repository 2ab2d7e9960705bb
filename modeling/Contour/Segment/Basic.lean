import Contour.Angle

/-!
# Segments of an outline

A segment is a line or a curve, and a curve is an arc or a full circle. The angles of an arc always
describe its counter-clockwise sweep; which way it was drawn is kept in the order of its trace points
and in a flag.

* `Line`, `Arc`, `Circle`, `Curve`, `Segment` — the types.
* `Arc.start`, `Arc.stop` — the end points in counter-clockwise order.
* `Curve.center`, `Curve.radius`, `Curve.startAngle`, `Curve.endAngle` — what arcs and circles share.
* `Segment.reverse` — the same points drawn the other way.
-/

namespace Contour

structure Line (α : Type) where
  start : Point α
  stop : Point α
  deriving Repr, DecidableEq

structure Arc (α : Type) where
  center : Point α
  radius : α
  /-- The end where drawing starts. -/
  traceStart : Point α
  /-- The end where drawing stops. -/
  traceStop : Point α
  /-- The first angle of the counter-clockwise sweep. -/
  startAngle : α
  /-- The last angle of the counter-clockwise sweep, unwrapped. -/
  endAngle : α
  clockwise : Bool
  deriving Repr, DecidableEq

structure Circle (α : Type) where
  center : Point α
  radius : α
  deriving Repr, DecidableEq

inductive Curve (α : Type) where
  | arc (a : Arc α)
  | circle (c : Circle α)
  deriving Repr, DecidableEq

inductive Segment (α : Type) where
  | line (l : Line α)
  | curve (c : Curve α)
  deriving Repr, DecidableEq

variable {α : Type}

namespace Arc

/-- The first point of the counter-clockwise sweep. -/
def start (a : Arc α) : Point α := if a.clockwise then a.traceStop else a.traceStart

/-- The last point of the counter-clockwise sweep. -/
def stop (a : Arc α) : Point α := if a.clockwise then a.traceStart else a.traceStop

def sweep [Sub α] (a : Arc α) : α := a.endAngle - a.startAngle

def reverse (a : Arc α) : Arc α :=
  { a with traceStart := a.traceStop, traceStop := a.traceStart, clockwise := !a.clockwise }

end Arc

/-- The point of a circle at angle zero, where it starts and ends. -/
def Circle.start [Add α] (c : Circle α) : Point α := ⟨c.center.x + c.radius, c.center.y, c.center.z⟩

namespace Curve

def center : Curve α → Point α
  | arc a => a.center
  | circle c => c.center

def radius : Curve α → α
  | arc a => a.radius
  | circle c => c.radius

/-- The first angle of the counter-clockwise sweep. -/
def startAngle [OfNat α 0] : Curve α → α
  | arc a => a.startAngle
  | circle _ => 0

/-- The last angle of the counter-clockwise sweep. -/
def endAngle [Mul α] [OfNat α 2] [Elementary α] : Curve α → α
  | arc a => a.endAngle
  | circle _ => Angle.turn

/-- The first point of the counter-clockwise sweep. -/
def start [Add α] : Curve α → Point α
  | arc a => a.start
  | circle c => c.start

/-- The last point of the counter-clockwise sweep. -/
def stop [Add α] : Curve α → Point α
  | arc a => a.stop
  | circle c => c.start

def isArc : Curve α → Bool
  | arc _ => true
  | circle _ => false

/-- The same curve drawn the other way; a circle has no direction. -/
def reverse : Curve α → Curve α
  | arc a => arc a.reverse
  | circle c => circle c

end Curve

namespace Segment

def reverse : Segment α → Segment α
  | line l => line ⟨l.stop, l.start⟩
  | curve c => curve c.reverse

def isLine : Segment α → Bool
  | line _ => true
  | curve _ => false

def isArc : Segment α → Bool
  | curve (.arc _) => true
  | _ => false

def isCircle : Segment α → Bool
  | curve (.circle _) => true
  | _ => false

end Segment

end Contour
