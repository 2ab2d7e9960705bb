import Contour.Point

/-!
# Angles

Angles are in radians and grow counter-clockwise. A direction has one angle in every turn; an arc
stores its angles unwrapped, so that its end is not below its start.

* `Angle.turn` — the angle of a full turn.
* `Angle.normalize` — the angle of a direction from zero up to a turn.
* `Angle.unwrapAfter` — an angle raised by whole turns until it reaches a start.
* `Angle.inRange` — whether a direction lies between two angles, up to one turn either way.
-/

namespace Contour.Angle

variable {α : Type} [Mul α] [OfNat α 2] [Elementary α]

def turn : α := 2 * Elementary.pi

/-- The angle of the same direction from zero up to a turn. A remainder that rounds to a whole turn
counts as zero. -/
def normalize [LE α] [DecidableLE α] [OfNat α 0] (angle : α) : α :=
  let rest := Elementary.modulo angle turn
  if turn ≤ rest then 0 else rest

/-- A bound on the whole turns between two angles, with room for the rounding of each addition. -/
def turnsBetween [Sub α] [Div α] (low high : α) : Nat :=
  2 * (Elementary.ceil ((high - low) / turn)).toNat + 2

/-- Adds turns to an angle while it is below `start`, at most `limit` of them. -/
def raise [Add α] [LT α] [DecidableLT α] (start : α) : Nat → α → α
  | 0, angle => angle
  | limit + 1, angle => if angle < start then raise start limit (angle + turn) else angle

/-- The angle raised turn by turn until it is no less than `start`. -/
def unwrapAfter [Add α] [Sub α] [Div α] [LT α] [DecidableLT α] (angle start : α) : α :=
  raise start (turnsBetween angle start) angle

/-- Takes turns off a pair of angles while the first is above half a turn, at most `limit` of them. -/
def lower [Sub α] [LT α] [DecidableLT α] : Nat → α × α → α × α
  | 0, range => range
  | limit + 1, range =>
    if Elementary.pi < range.1 then lower limit (range.1 - turn, range.2 - turn) else range

/-- A range of angles moved down turn by turn until it starts no later than half a turn. -/
def rewind [Sub α] [Div α] [LT α] [DecidableLT α] (start stop : α) : α × α :=
  lower (turnsBetween Elementary.pi start) (start, stop)

/-- Whether an angle, or the same angle a turn later or earlier, lies between `start` and `stop`,
both widened by `tol`. -/
def inRange [Add α] [Sub α] [LE α] [DecidableLE α] (angle start stop tol : α) : Bool :=
  [angle, angle + turn, angle - turn].any fun a => start - tol ≤ a && a ≤ stop + tol

end Contour.Angle
