import Contour.Angle
import Contour.Model.Basic

/-!
# Builders

A builder collects the parameters of one patch and asks a model to make it. Setting parameters either
succeeds as a whole or leaves the builder as it was.

* `Boundary` — the parameters of a part of a cylinder, with `Boundary.radius` and `Boundary.angles`.
* `CylinderBuilder`, `WallBuilder` — the builders.
* `CylinderBuilder.setParams`, `WallBuilder.setParams` — setting the parameters.
* `CylinderBuilder.require`, `WallBuilder.require` — the parameters that were set.
* `CylinderBuilder.instantiate`, `WallBuilder.instantiate` — the patch, or none if the model makes none.
-/

namespace Contour

/-- A center and two boundary points around it, counter-clockwise, in the plane `z = 0`. -/
structure Boundary (α : Type) where
  center : Point α
  start : Point α
  stop : Point α
  deriving Repr, DecidableEq

structure CylinderBuilder (α : Type) where
  params : Option (Boundary α)
  deriving Repr, DecidableEq

structure WallBuilder (α : Type) where
  corners : Option (Quad α)
  deriving Repr, DecidableEq

variable {α : Type} [Add α] [Sub α] [Mul α] [Div α] [LT α] [LE α] [DecidableLT α] [DecidableLE α] [BEq α]
  [OfNat α 0] [OfNat α 1] [OfNat α 2] [OfScientific α] [Elementary α]

namespace Boundary

/-- The boundary about a center, from which both points must differ by more than `tol` in a
coordinate. Only the first two coordinates are kept. -/
def ofPoints (center start stop : Point α) (tol : α) : Except (Fault α) (Boundary α) :=
  if center.agrees start tol || center.agrees stop tol then .error (.badValue .boundaryAtCenter)
  else .ok ⟨center.withZ 0, start.withZ 0, stop.withZ 0⟩

def radius (b : Boundary α) : α := b.center.dist b.start

/-- The angles of the two points; points that coincide bound a full turn. -/
def angles (b : Boundary α) : α × α :=
  let first := b.start.angleXY b.center
  if b.start.agrees b.stop coincidentTol then (first, first + Angle.turn)
  else (first, Angle.unwrapAfter (b.stop.angleXY b.center) first)

/-- The part of a cylinder on a boundary between two heights, in whichever order they are given. -/
def cylinder (b : Boundary α) (zTop zBottom : α) : Except (Fault α) (Cylinder α) :=
  Cylinder.ofRanges b.center b.radius b.angles.1 b.angles.2 (Scalar.smaller zTop zBottom)
    (Scalar.larger zTop zBottom)

end Boundary

namespace CylinderBuilder

def new : CylinderBuilder α := ⟨none⟩

/-- The builder with parameters from outside data in place of its own. -/
def setParams [Textual α] (_ : CylinderBuilder α) (center start stop : Datum α) (tol : α) :
    Except (Fault α) (CylinderBuilder α) := do
  let c ← center.toPoint
  let s ← start.toPoint
  let e ← stop.toPoint
  return ⟨some (← Boundary.ofPoints c s e tol)⟩

/-- The parameters of a builder, which must have been set. -/
def require (b : CylinderBuilder α) : Except (Fault α) (Boundary α) :=
  match b.params with
  | none => .error (.badValue (.unsetBuilder "CylinderBuilder"))
  | some boundary => .ok boundary

/-- Asks a model for the patch between two heights. -/
def instantiate (b : CylinderBuilder α) (model : Model α) (zTop zBottom : α) :
    Registering α (Option (Patch α)) := do
  let boundary ← b.require
  Registering.orNone (model.makeCylinder (boundary.cylinder zTop zBottom))

end CylinderBuilder

namespace WallBuilder

def new : WallBuilder α := ⟨none⟩

/-- The builder with corners from outside data in place of its own. -/
def setParams [Textual α] (_ : WallBuilder α) (first second third fourth : Datum α) :
    Except (Fault α) (WallBuilder α) := do
  return ⟨some ⟨← first.toPoint, ← second.toPoint, ← third.toPoint, ← fourth.toPoint⟩⟩

def require (b : WallBuilder α) : Except (Fault α) (Quad α) :=
  match b.corners with
  | none => .error (.badValue (.unsetBuilder "WallBuilder"))
  | some corners => .ok corners

def instantiate (b : WallBuilder α) (model : Model α) : Registering α (Option (Patch α)) := do
  let corners ← b.require
  Registering.orNone (model.makePlane (Plane.ofCorners corners coincidentTol))

end WallBuilder

end Contour
