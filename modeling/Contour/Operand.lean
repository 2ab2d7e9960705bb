import Contour.Box
import Contour.Intersection.Pairs
import Contour.Segment.Read
import Contour.Segment.Split

/-!
# Operands

An operand is a value handed in where a segment belongs. It need not be one: operations on operands
refuse what is not a segment before they do anything else. A segment need not have been checked.

* `Operand`, `Operand.isSegment`, `require` — the type, and the segment it must hold.
* `Operand.length`, `sample`, `reverse`, `contains` — operations that fail without a report.
* `Operand.box`, `split`, `intersect` — operations whose refusals are reported.
* `Operand.outlineBox`, `Operand.intersectAll` — operations on outlines.
-/

namespace Contour

/-- A value handed in where a segment belongs. -/
inductive Operand (α : Type) where
  | segment (s : Segment α)
  | other

namespace Operand

variable {α : Type}

def isSegment : Operand α → Bool
  | segment _ => true
  | other => false

/-- The segment of an operand, which `which` names in the refusal. -/
def require (which : String) : Operand α → Except (Fault α) (Segment α)
  | segment s => .ok s
  | other => refuse (.emptySegment which)

variable [Add α] [Sub α] [Mul α] [Div α] [Neg α] [LT α] [LE α] [DecidableLT α] [DecidableLE α]
  [BEq α] [OfNat α 0] [OfNat α 1] [OfNat α 2] [OfScientific α] [Elementary α]

def length (o : Operand α) : Except (Fault α) α := do
  return (← o.require "segment").length

def sample (o : Operand α) (u : Datum α) : Except (Fault α) (Point α) := do
  let s ← o.require "segment"
  s.sample (← u.operand)

def reverse (o : Operand α) : Except (Fault α) (Segment α) := do
  return (← o.require "segment").reverse

def box (o : Operand α) (tol : α) : Reporting α (Box α) := logged do
  return (← o.require "segment").box tol

/-- The box of an outline, which must not be empty. -/
def outlineBox (outline : List (Operand α)) : Except (Fault α) (Box α) := do
  let segments ← outline.mapM (require "segment")
  Box.ofBoxes (segments.map (·.box coincidentTol))

section Reading

variable [Textual α]

/-- Whether a point of outside data lies on an operand within `tol`. -/
def contains (o : Operand α) (p : Datum α) (tol : α) : Except (Fault α) Bool := do
  let s ← o.require "segment"
  s.contains (← p.toPoint) tol

/-- The pieces of an operand that is cut at points of outside data. Refusals of the operand and of
its cuts are reported; what goes wrong while the pieces are built is not. -/
def split (o : Operand α) (points : List (Datum α)) (tol : α) : Reporting α (List (Segment α)) := do
  let s ← logged (o.require "segment")
  let cuts ← unlogged (points.mapM Datum.toPoint)
  logged (s.checkCuts cuts tol)
  unlogged (s.cut cuts tol)

end Reading

variable [Widening α]

/-- The intersection of two operands, of which the first is looked at first. -/
def intersection (a b : Operand α) (tol radiusTol : α) : Except (Fault α) (Intersection α) := do
  let s ← a.require "first segment"
  let t ← b.require "second segment"
  s.intersect t tol radiusTol

/-- The intersection of two operands, with a report of a refusal. -/
def intersect (a b : Operand α) (tol radiusTol : α) : Reporting α (Intersection α) :=
  logged (a.intersection b tol radiusTol)

/-- The findings among all pairs of an outline, with the two positions. -/
def intersectAll (outline : List (Operand α)) (tol radiusTol : α) :
    Reporting α (List (Nat × Nat × Intersection α)) := logged do
  let results ← (pairs outline.zipIdx).mapM fun (a, b) => do
    return (a.2, b.2, ← a.1.intersection b.1 tol radiusTol)
  return results.filter fun r => r.2.2.isFinding

end Operand

end Contour
