import Contour.Datum
import Contour.Diagnostic.Basic

/-!
# Faults

Every way in which an operation can fail, as a cause. A diagnosed fault is a refusal, with its class of
errors and its diagnostic; the other causes have a wording of their own or none.

* `BadValue` — a value that an operation does not take, with its wording.
* `Fault` — the causes.
* `Fault.isBadValue` — whether the fault lies in a value that was handed in.
* `refuse` — fails with the refusal that a complaint makes.
-/

namespace Contour

inductive BadValue (α : Type) where
  /-- A list with fewer than two coordinates. -/
  | missingCoordinates (given : List (Datum α))
  /-- Coordinates that are not all numbers. -/
  | badCoordinates (x y z : Datum α)
  | unreadableNumber (given : String)
  /-- A text where a message shows a number. -/
  | notWritten
  | outsideDomain
  /-- No whole number of divisions follows from angles that are no numbers. -/
  | uncountable
  | emptyOutline
  | radiusNotPositive
  | anglesNotIncreasing
  | heightsNotIncreasing
  | cornerCount
  | cornersWithoutArea
  | cornersNotCoplanar
  | notCylinderPatch
  | notPlanePatch
  | notPatch
  | tooFewDivisions
  | alreadyRegistered (id : Nat)
  /-- There never was this mark, or it lies beyond the present length. -/
  | invalidMark (mark : Int)
  | boundaryAtCenter
  | unsetBuilder (name : String)

namespace BadValue

variable {α : Type} [Textual α]

/-- The wording of a bad value, with a label for the id of a patch. -/
def message (label : Nat → String) : BadValue α → String
  | missingCoordinates given =>
    "point needs at least two coordinates: " ++ (Datum.list given).shown
  | badCoordinates x y z =>
    "bad point coordinates: " ++ x.shownBare ++ " " ++ y.shownBare ++ " " ++ z.shownBare
  | unreadableNumber given => "could not convert string to float: " ++ Text.quoted given
  | notWritten => "Unknown format code \x27g\x27 for object of type \x27str\x27"
  | outsideDomain => "math domain error"
  | uncountable => "cannot convert float NaN to integer"
  | emptyOutline => "outline_bbox needs at least one segment"
  | radiusNotPositive => "Radius must be positive"
  | anglesNotIncreasing => "Angular range must be increasing"
  | heightsNotIncreasing => "Height range must be increasing"
  | cornerCount => "A plane patch needs exactly 4 corners"
  | cornersWithoutArea => "Plane patch corners do not span an area"
  | cornersNotCoplanar => "Plane patch corners are not coplanar"
  | notCylinderPatch => "Not a cylinder patch"
  | notPlanePatch => "Not a plane patch"
  | notPatch => "Not a patch"
  | tooFewDivisions => "Divisions must be at least 1"
  | alreadyRegistered id => "Patch " ++ label id ++ " is already registered"
  | invalidMark mark => "Invalid checkpoint " ++ toString mark
  | boundaryAtCenter => "Cylinder boundary point coincides with its center"
  | unsetBuilder name => name ++ ".set_params() has not been called"

end BadValue

inductive Fault (α : Type) where
  /-- A refusal of the kernel. -/
  | diagnosed (refusal : Refusal α)
  | badValue (cause : BadValue α)
  /-- A value of a shape that the operation has no use for. -/
  | badShape
  | divisionByZero
  /-- An integer, or an infinite count, beyond the range. -/
  | overflow
  /-- The named kind of model cannot undo. -/
  | noRollback (model : String)
  | unsupported

namespace Fault

variable {α : Type}

/-- Whether the fault lies in a value that was handed in: a refusal or a bad value. -/
def isBadValue : Fault α → Bool
  | diagnosed _ | badValue _ => true
  | _ => false

/-- The wording of a fault, with a label for the id of a patch; some faults have none. -/
def message? [Textual α] (label : Nat → String) : Fault α → Option String
  | diagnosed refusal => some refusal.diagnostic.format
  | badValue cause => some (cause.message label)
  | noRollback model => some (model ++ " does not support rollback")
  | badShape | divisionByZero | overflow | unsupported => none

end Fault

/-- Fails with the refusal that a complaint makes. -/
def refuse {α β : Type} (c : Complaint α) : Except (Fault α) β :=
  .error (.diagnosed (.ofComplaint c))

end Contour
