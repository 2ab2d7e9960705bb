import Contour.Fault

/-!
# Checked arithmetic

Division by zero and the sine and cosine of an infinite angle are faults, not numbers.

* `quotient`, `sine`, `cosine` — the checked operations.
* `Point.polar` — the point of a circle at an angle.
-/

namespace Contour

variable {α : Type} [Elementary α]

/-- The quotient of two numbers, a fault if the divisor is zero. -/
def quotient {α β : Type} [Div α] [BEq α] [OfNat α 0] (a b : α) : Except (Fault β) α :=
  if b == 0 then .error .divisionByZero else .ok (a / b)

/-- The sine of an angle, a fault if it is infinite. -/
def sine (angle : α) : Except (Fault α) α :=
  if Elementary.isInfinite angle then .error (.badValue .outsideDomain)
  else .ok (Elementary.sin angle)

def cosine (angle : α) : Except (Fault α) α :=
  if Elementary.isInfinite angle then .error (.badValue .outsideDomain)
  else .ok (Elementary.cos angle)

/-- The point at an angle on a circle in a plane of constant height. -/
def Point.polar [Add α] [Mul α] (center : Point α) (radius angle : α) : Except (Fault α) (Point α) := do
  return ⟨center.x + radius * (← cosine angle), center.y + radius * (← sine angle), center.z⟩

end Contour
