import Contour.Reading
import Contour.Checked

/-!
# Surface patches

Extruding a curve gives a part of an upright cylinder, extruding a line a flat quadrilateral. A patch
is such a shape with an id of its own.

* `Cylinder`, `Quad`, `Plane`, `Shape` — the shapes.
* `Cylinder.ofRanges`, `Plane.ofCorners` — checked shapes.
* `Cylinder.read`, `Plane.read` — the same from outside data.
* `Patch` — a shape with an id, and `Patch.require`, `requireCylinder`, `requirePlane`.
* `Datum.hasPatchForm` — whether outside data has the form of a patch.
-/

namespace Contour

/-- The part of an upright cylinder between two angles and two heights. -/
structure Cylinder (α : Type) where
  center : Point α
  radius : α
  startAngle : α
  endAngle : α
  bottom : α
  top : α
  deriving Repr, DecidableEq

/-- Four corners in the order of the boundary. -/
structure Quad (α : Type) where
  first : Point α
  second : Point α
  third : Point α
  fourth : Point α
  deriving Repr, DecidableEq

/-- A flat quadrilateral with its unit normal and its area. -/
structure Plane (α : Type) where
  corners : Quad α
  normal : Point α
  area : α
  deriving Repr, DecidableEq

inductive Shape (α : Type) where
  | cylinder (c : Cylinder α)
  | plane (p : Plane α)
  deriving Repr, DecidableEq

structure Patch (α : Type) where
  id : Nat
  shape : Shape α
  deriving Repr, DecidableEq

variable {α : Type}

def Quad.toList (q : Quad α) : List (Point α) := [q.first, q.second, q.third, q.fourth]

namespace Shape

def kind : Shape α → String
  | cylinder _ => "cylinder_patch"
  | plane _ => "plane_patch"

def isCylinder : Shape α → Bool
  | cylinder _ => true
  | plane _ => false

def isPlane : Shape α → Bool
  | cylinder _ => false
  | plane _ => true

def origin : Shape α → Point α
  | cylinder c => c.center
  | plane p => p.corners.first

/-- The range of the first parameter: the angles of a cylinder. -/
def uRange [OfNat α 0] [OfNat α 1] : Shape α → α × α
  | cylinder c => (c.startAngle, c.endAngle)
  | plane _ => (0, 1)

/-- The range of the second parameter: the heights of a cylinder. -/
def vRange [OfNat α 0] [OfNat α 1] : Shape α → α × α
  | cylinder c => (c.bottom, c.top)
  | plane _ => (0, 1)

end Shape

/-! ## Values that should be patches -/

namespace Patch

def require : Option (Patch α) → Except (Fault α) (Patch α)
  | some p => .ok p
  | none => .error (.badValue .notPatch)

def requireCylinder : Option (Patch α) → Except (Fault α) (Cylinder α)
  | some ⟨_, .cylinder c⟩ => .ok c
  | _ => .error (.badValue .notCylinderPatch)

def requirePlane : Option (Patch α) → Except (Fault α) (Plane α)
  | some ⟨_, .plane p⟩ => .ok p
  | _ => .error (.badValue .notPlanePatch)

end Patch

/-- Whether outside data is a list of three whose first item is the word for a kind of patch and
whose third is a record with the field `key`. -/
def Datum.hasPatchForm (kind key : String) : Datum α → Bool
  | .list [.text word, _, .record fields] => word == kind && fields.any (·.1 == key)
  | _ => false

/-! ## Checked shapes -/

variable [Add α] [Sub α] [Mul α] [Div α] [LT α] [LE α] [DecidableLT α] [DecidableLE α] [BEq α]
  [OfNat α 0] [OfNat α 1] [OfScientific α] [Elementary α]

def Cylinder.checkRadius (radius : α) : Except (Fault α) Unit :=
  if radius ≤ 0 then .error (.badValue .radiusNotPositive) else .ok ()

/-- The part of a cylinder between two increasing angles and two increasing heights. -/
def Cylinder.ofRanges (center : Point α) (radius startAngle endAngle bottom top : α) :
    Except (Fault α) (Cylinder α) := do
  Cylinder.checkRadius radius
  if endAngle ≤ startAngle then .error (.badValue .anglesNotIncreasing)
  else if top - bottom < extrusionTol then .error (.badValue .heightsNotIncreasing)
  else return ⟨center, radius, startAngle, endAngle, bottom, top⟩

/-- The sum of the vector products of consecutive corners. It is normal to a flat quadrilateral and
twice as long as its area. -/
def Quad.normalSum (q : Quad α) : Point α :=
  [(q.first, q.second), (q.second, q.third), (q.third, q.fourth), (q.fourth, q.first)].foldl
    (fun sum edge => sum.add (edge.1.cross edge.2)) ⟨0, 0, 0⟩

/-- The flat quadrilateral with the given corners, which must span an area and lie in one plane
within `tol`. -/
def Plane.ofCorners (q : Quad α) (tol : α) : Except (Fault α) (Plane α) := do
  let size := q.normalSum.mag
  if size < tol then .error (.badValue .cornersWithoutArea)
  else
    let normal := q.normalSum.scale (← quotient 1 size)
    if [q.second, q.third, q.fourth].any fun p =>
        tol < Elementary.abs ((p.sub q.first).dot normal) then
      .error (.badValue .cornersNotCoplanar)
    else return ⟨q, normal, 0.5 * size⟩

variable [Textual α]

/-- The part of a cylinder that outside data describes. The radius is compared before the angles and
heights are read. -/
def Cylinder.read (center radius startAngle endAngle bottom top : Datum α) :
    Except (Fault α) (Cylinder α) := do
  let c ← center.toPoint
  let r ← radius.comparand
  Cylinder.checkRadius r
  let cylinder ←
    Cylinder.ofRanges c r (← startAngle.number) (← endAngle.number) (← bottom.number) (← top.number)
  let _ ← radius.operand
  return cylinder

/-- The flat quadrilateral whose corners are the items of outside data. -/
def Plane.read (corners : Datum α) (tol : α) : Except (Fault α) (Plane α) := do
  match corners.items? with
  | none => .error .badShape
  | some items =>
    match ← items.mapM Datum.toPoint with
    | [first, second, third, fourth] => Plane.ofCorners ⟨first, second, third, fourth⟩ tol
    | _ => .error (.badValue .cornerCount)

end Contour
