import Contour.Patch.Basic

/-!
# Points and normals of patches

* `Cylinder.evaluate`, `Plane.evaluate`, `Shape.evaluate` — the point at two parameters.
* `Cylinder.normalAt`, `Shape.normalAt` — the unit normal there.
-/

namespace Contour

variable {α : Type} [Add α] [Sub α] [Mul α] [OfNat α 0] [Elementary α]

def Cylinder.evaluate (c : Cylinder α) (u v : α) : Except (Fault α) (Point α) := do
  return (← c.center.polar c.radius u).withZ v

def Cylinder.normalAt (_ : Cylinder α) (u _v : α) : Except (Fault α) (Point α) := do
  return ⟨← cosine u, ← sine u, 0⟩

/-- The point of a quadrilateral between the points at `u` on the first and on the third side. -/
def Plane.evaluate (p : Plane α) (u v : α) : Point α :=
  (p.corners.first.lerp p.corners.second u).lerp (p.corners.fourth.lerp p.corners.third u) v

namespace Shape

def evaluate : Shape α → α → α → Except (Fault α) (Point α)
  | cylinder c, u, v => c.evaluate u v
  | plane p, u, v => .ok (p.evaluate u v)

/-- The unit normal of a shape at two parameters; a flat shape has the same everywhere. -/
def normalAt : Shape α → α → α → Except (Fault α) (Point α)
  | cylinder c, u, v => c.normalAt u v
  | plane p, _, _ => .ok p.normal

end Shape

end Contour
