import Contour.Scalar

/-!
# Diagnostics

A refusal of the kernel is an error with a diagnostic: what is wrong, how grave it is, and hints. What
is wrong is kept as a cause; its code and its wording are functions of the cause. Every code has a class
of errors of its own.

* `Code` — the seven kinds of refusal, with `Code.id` and `Code.name`.
* `ErrorClass`, `Code.errorClass` — the classes of errors, and the one that belongs to a code.
* `Severity` — how grave a diagnostic is.
* `Complaint` — what is wrong, with `Complaint.code` and `Complaint.message`.
* `Diagnostic` — a complaint with its severity and hints, and its text `Diagnostic.format`.
* `Refusal` — an error of some class that carries a diagnostic, made by `Diagnostic.refusal`.
-/

namespace Contour

inductive Code where
  | nonPlanarInput
  | degenerateGeometry
  | radiusMismatch
  | emptySegment
  | degenerateExtrusion
  | nullModel
  | surfaceConstructionFailed
  deriving Repr, DecidableEq

namespace Code

def all : List Code :=
  [nonPlanarInput, degenerateGeometry, radiusMismatch, emptySegment, degenerateExtrusion, nullModel,
    surfaceConstructionFailed]

def id : Code → String
  | nonPlanarInput => "S001"
  | degenerateGeometry => "S002"
  | radiusMismatch => "S003"
  | emptySegment => "S004"
  | degenerateExtrusion => "S005"
  | nullModel => "S006"
  | surfaceConstructionFailed => "S007"

def name : Code → String
  | nonPlanarInput => "NON_PLANAR_INPUT"
  | degenerateGeometry => "DEGENERATE_GEOMETRY"
  | radiusMismatch => "RADIUS_MISMATCH"
  | emptySegment => "EMPTY_SEGMENT"
  | degenerateExtrusion => "DEGENERATE_EXTRUSION"
  | nullModel => "NULL_MODEL"
  | surfaceConstructionFailed => "SURFACE_CONSTRUCTION_FAILED"

def ofName? (s : String) : Option Code := all.find? (·.name == s)

end Code

/-- The classes of the errors that carry a diagnostic. -/
inductive ErrorClass where
  | nonPlanarInputError
  | degenerateGeometryError
  | radiusMismatchError
  | emptySegmentError
  | degenerateExtrusionError
  | nullModelError
  | surfaceConstructionError
  deriving Repr, DecidableEq

def ErrorClass.name : ErrorClass → String
  | nonPlanarInputError => "NonPlanarInputError"
  | degenerateGeometryError => "DegenerateGeometryError"
  | radiusMismatchError => "RadiusMismatchError"
  | emptySegmentError => "EmptySegmentError"
  | degenerateExtrusionError => "DegenerateExtrusionError"
  | nullModelError => "NullModelError"
  | surfaceConstructionError => "SurfaceConstructionError"

/-- The class of the errors with a code. -/
def Code.errorClass : Code → ErrorClass
  | nonPlanarInput => .nonPlanarInputError
  | degenerateGeometry => .degenerateGeometryError
  | radiusMismatch => .radiusMismatchError
  | emptySegment => .emptySegmentError
  | degenerateExtrusion => .degenerateExtrusionError
  | nullModel => .nullModelError
  | surfaceConstructionFailed => .surfaceConstructionError

inductive Severity where
  | error
  | warning
  | info
  deriving Repr, DecidableEq

namespace Severity

def name : Severity → String
  | error => "error"
  | warning => "warning"
  | info => "info"

def ofName? (s : String) : Option Severity := [error, warning, info].find? (·.name == s)

end Severity

/-- What is wrong. -/
inductive Complaint (α : Type) where
  /-- A defining point of `what` lies outside the plane. -/
  | nonPlanar (what : String)
  /-- Coincident points, or another shape that defines nothing. -/
  | degenerate (what : String)
  /-- A segment is cut at one or two points, not at `count`. -/
  | cutCount (count : Nat)
  | cutOffSegment (x y : α)
  /-- The two ends of an arc have different radii. -/
  | radiusMismatch (first second tol : α)
  /-- An operand carries no segment. -/
  | emptySegment (which : String)
  | degenerateExtrusion (top bottom : α)
  | nullModel
  /-- A builder could not make its patch. -/
  | surfaceConstruction (what : String)
  /-- A refusal in words of the caller. -/
  | remark (code : Code) (words : String)
  deriving Repr, DecidableEq

namespace Complaint

variable {α : Type}

def code : Complaint α → Code
  | nonPlanar _ => .nonPlanarInput
  | degenerate _ | cutCount _ | cutOffSegment _ _ => .degenerateGeometry
  | radiusMismatch _ _ _ => .radiusMismatch
  | emptySegment _ => .emptySegment
  | degenerateExtrusion _ _ => .degenerateExtrusion
  | nullModel => .nullModel
  | surfaceConstruction _ => .surfaceConstructionFailed
  | remark code _ => code

/-- What may help against a complaint. -/
def hints : Complaint α → List String
  | nonPlanar _ => ["segment geometry must lie in the z=0 plane"]
  | _ => []

def message [Textual α] : Complaint α → String
  | nonPlanar what => "non-0 z values in " ++ what ++ " points"
  | degenerate what => "degenerate " ++ what
  | cutCount count => "degenerate split: expected 1 or 2 split points, got " ++ toString count
  | cutOffSegment x y =>
    "degenerate split: point (" ++ Textual.general x ++ ", " ++ Textual.general y ++
      ") is not on the segment"
  | radiusMismatch first second tol =>
    "radii differ by > " ++ Textual.general tol ++ " (" ++ Textual.general first ++ " vs " ++
      Textual.general second ++ ")"
  | emptySegment which => "no data in " ++ which
  | degenerateExtrusion top bottom =>
    "degenerate surface: top z " ++ Textual.general top ++ " and bottom z " ++
      Textual.general bottom ++ " coincide"
  | nullModel => "invalid model handle passed for surface instantiation"
  | surfaceConstruction what => "could not create " ++ what ++ " surface"
  | remark _ words => words

end Complaint

/-- A complaint with its severity and hints. -/
structure Diagnostic (α : Type) where
  complaint : Complaint α
  severity : Severity
  hints : List String
  deriving Repr, DecidableEq

namespace Diagnostic

variable {α : Type}

def ofComplaint (c : Complaint α) : Diagnostic α := ⟨c, .error, c.hints⟩

def code (d : Diagnostic α) : Code := d.complaint.code

variable [Textual α]

def message (d : Diagnostic α) : String := d.complaint.message

/-- The text of a diagnostic: severity, code and wording, then a line for each hint. -/
def format (d : Diagnostic α) : String :=
  let head := d.severity.name ++ "[" ++ d.code.id ++ "]: " ++ d.message
  "\n".intercalate (head :: d.hints.map ("    = hint: " ++ ·))

end Diagnostic

/-- An error with the diagnostic that it carries. -/
structure Refusal (α : Type) where
  errorClass : ErrorClass
  diagnostic : Diagnostic α
  deriving Repr, DecidableEq

/-- The error for a diagnostic, of the class that belongs to its code. -/
def Diagnostic.refusal {α : Type} (d : Diagnostic α) : Refusal α := ⟨d.code.errorClass, d⟩

namespace Refusal

variable {α : Type}

def ofComplaint (c : Complaint α) : Refusal α := (Diagnostic.ofComplaint c).refusal

def complaint (r : Refusal α) : Complaint α := r.diagnostic.complaint

def code (r : Refusal α) : Code := r.diagnostic.code

end Refusal

end Contour
