import Contour.Scalar

/-!
# Points

A point has three coordinates. Segments lie in the plane `z = 0`; the third coordinate matters once a
segment is extruded. Points also serve as displacements.

* `Point` — the type, with `add`, `sub`, `scale`, `dot`, `cross`, `crossXY`.
* `Point.mag`, `Point.dist` — length and distance.
* `Point.lerp` — the point at a parameter between two points.
* `Point.angleXY` — the direction of a point seen from a center.
* `Point.vclose`, `Point.agrees` — nearness by distance, and by each coordinate.
* `Point.isPlanar` — whether a point lies in the plane of the segments.
-/

namespace Contour

structure Point (α : Type) where
  x : α
  y : α
  z : α
  deriving Repr, DecidableEq, Inhabited

namespace Point

variable {α : Type}

/-- The point of the plane `z = 0` with the given coordinates. -/
def planar [OfNat α 0] (x y : α) : Point α := ⟨x, y, 0⟩

def withZ (p : Point α) (z : α) : Point α := ⟨p.x, p.y, z⟩

def toList (p : Point α) : List α := [p.x, p.y, p.z]

/-! ## Displacements -/

def add [Add α] (a b : Point α) : Point α := ⟨a.x + b.x, a.y + b.y, a.z + b.z⟩

/-- The displacement from `b` to `a`. -/
def sub [Sub α] (a b : Point α) : Point α := ⟨a.x - b.x, a.y - b.y, a.z - b.z⟩

/-- A displacement `c` times as long. -/
def scale [Mul α] (a : Point α) (c : α) : Point α := ⟨a.x * c, a.y * c, a.z * c⟩

def dot [Add α] [Mul α] (a b : Point α) : α := a.x * b.x + a.y * b.y + a.z * b.z

def cross [Sub α] [Mul α] (a b : Point α) : Point α :=
  ⟨a.y * b.z - a.z * b.y, a.z * b.x - a.x * b.z, a.x * b.y - a.y * b.x⟩

/-- The third coordinate of the vector product. -/
def crossXY [Sub α] [Mul α] (a b : Point α) : α := a.x * b.y - a.y * b.x

/-- The length of a displacement. A sum of squares is never negative, so the root always exists. -/
def mag [Add α] [Mul α] [Elementary α] (a : Point α) : α := Elementary.sqrt (a.dot a)

def dist [Add α] [Sub α] [Mul α] [Elementary α] (a b : Point α) : α := (a.sub b).mag

/-- The point at parameter `t` on the line that is at `a` for zero and at `b` for one. -/
def lerp [Add α] [Sub α] [Mul α] (a b : Point α) (t : α) : Point α :=
  ⟨a.x + t * (b.x - a.x), a.y + t * (b.y - a.y), a.z + t * (b.z - a.z)⟩

/-- The direction of `p` seen from `center`. -/
def angleXY [Sub α] [Elementary α] (p center : Point α) : α := Elementary.atan2 (p.y - center.y) (p.x - center.x)

/-! ## Nearness -/

/-- Whether two numbers differ by less than `tol`. -/
def close [Sub α] [LT α] [DecidableLT α] [Elementary α] (a b tol : α) : Bool := Elementary.abs (a - b) < tol

/-- Whether two points are less than `tol` apart. -/
def vclose [Add α] [Sub α] [Mul α] [LT α] [DecidableLT α] [Elementary α] (a b : Point α) (tol : α) :
    Bool :=
  a.dist b < tol

/-- Whether two points agree within `tol` in every coordinate. -/
def agrees [Sub α] [LE α] [DecidableLE α] [Elementary α] (a b : Point α) (tol : α) : Bool :=
  Elementary.abs (a.x - b.x) ≤ tol && Elementary.abs (a.y - b.y) ≤ tol && Elementary.abs (a.z - b.z) ≤ tol

/-- Whether a point lies in the plane `z = 0`. -/
def isPlanar [BEq α] [OfNat α 0] (p : Point α) : Bool := p.z == 0

end Point

end Contour
