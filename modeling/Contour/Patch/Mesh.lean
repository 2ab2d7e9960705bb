import Contour.Patch.Evaluate

/-!
# Triangle meshes

A patch is divided along both parameters, and every cell of the grid into two triangles that wind
counter-clockwise as seen from the side of the normal.

* `Mesh` — vertices, normals and faces.
* `Grid.samples` — the parameters of a division.
* `Grid.faces` — the triangles of a grid of cells.
* `Shape.mesh` — the mesh of a shape.
-/

namespace Contour

/-- A triangle mesh. Faces are triples of positions in the list of vertices. -/
structure Mesh (α : Type) where
  vertices : List (Point α)
  normals : List (Point α)
  faces : List (Nat × Nat × Nat)
  deriving Repr, DecidableEq

namespace Grid

/-- The numbers that divide a range into `n` equal steps. -/
def samples {α : Type} [Dividing α] (range : α × α) (n : Nat) : List α :=
  Dividing.divide range.1 range.2 n

/-- The lower left corners of the cells of a grid of `n` by `m` cells, row by row. The corners of a
row are numbered from left to right, and those of the next row follow them. -/
def cells (n m : Nat) : List Nat :=
  (List.range m).flatMap fun j => (List.range n).map fun i => j * (n + 1) + i

def below (n corner : Nat) : Nat × Nat × Nat := (corner, corner + 1, corner + (n + 1) + 1)

def above (n corner : Nat) : Nat × Nat × Nat := (corner, corner + (n + 1) + 1, corner + (n + 1))

/-- The triangles of a grid: those below the diagonals, then those above. -/
def faces (n m : Nat) : List (Nat × Nat × Nat) :=
  (cells n m).map (below n) ++ (cells n m).map (above n)

end Grid

variable {α : Type} [Add α] [Sub α] [Mul α] [Div α] [BEq α] [OfNat α 0] [OfNat α 1] [OfScientific α]
  [Elementary α] [Dividing α]

/-- The values of a function of two parameters over a grid, row by row. -/
def Grid.tabulate {β : Type} (us vs : List α) (f : α → α → Except (Fault α) β) :
    Except (Fault α) (List β) :=
  (vs.flatMap fun v => us.map fun u => (u, v)).mapM fun uv => f uv.1 uv.2

/-- The number of divisions of a cylinder: one for each sixteenth of a turn begun, at least one. -/
def Cylinder.divisions (c : Cylinder α) : Except (Fault α) Int :=
  let parts := (c.endAngle - c.startAngle) / (Elementary.pi / 8.0)
  if Elementary.isNaN parts then .error (.badValue .uncountable)
  else if Elementary.isInfinite parts then .error .overflow
  else .ok (max 1 (Elementary.ceil parts))

/-- The number of divisions along the first parameter when none is given. -/
def Shape.divisions : Shape α → Except (Fault α) Int
  | cylinder c => c.divisions
  | plane _ => .ok 1

def Shape.mesh (s : Shape α) (uDivisions : Option Int) (vDivisions : Int) :
    Except (Fault α) (Mesh α) := do
  let n ← match uDivisions with
    | some n => .ok n
    | none => s.divisions
  if n < 1 || vDivisions < 1 then .error (.badValue .tooFewDivisions)
  else
    let us := Grid.samples s.uRange n.toNat
    let vs := Grid.samples s.vRange vDivisions.toNat
    let vertices ← Grid.tabulate us vs s.evaluate
    let normals ← Grid.tabulate us vs s.normalAt
    return ⟨vertices, normals, Grid.faces n.toNat vDivisions.toNat⟩

end Contour
