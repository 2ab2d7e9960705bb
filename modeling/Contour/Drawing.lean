import Contour.Operand

/-!
# Drawings

An outline is written as a drawing: one entity for each segment, on a layer.

* `Entity` — a line, a circle or an arc of a drawing; arcs run counter-clockwise, in degrees.
* `Header` — what a drawing says about itself.
* `Drawing`, `Drawing.new` — layers and entities, and a drawing with the outline layer.
* `Drafting` — computations on a drawing.
* `Drawing.addSegments` — the entities of an outline.
* `Drawing.write` — a drawing of an outline with its layer, written out.
-/

namespace Contour

/-- The figure of an entity. -/
inductive Figure (α : Type) where
  | line (start stop : Point α)
  | circle (center : Point α) (radius : α)
  | arc (center : Point α) (radius startDegrees endDegrees : α)
  deriving Repr, DecidableEq

namespace Figure

variable {α : Type}

def kind : Figure α → String
  | line _ _ => "LINE"
  | circle _ _ => "CIRCLE"
  | arc _ _ _ _ => "ARC"

variable [Mul α] [Div α] [OfNat α 0] [OfScientific α] [Elementary α]

def degrees (angle : α) : α := angle * (180.0 / Elementary.pi)

def ofSegment : Segment α → Figure α
  | .line l => line (.planar l.start.x l.start.y) (.planar l.stop.x l.stop.y)
  | .curve (.circle c) => circle (.planar c.center.x c.center.y) c.radius
  | .curve (.arc a) =>
    arc (.planar a.center.x a.center.y) a.radius (degrees a.startAngle) (degrees a.endAngle)

end Figure

structure Entity (α : Type) where
  layer : String
  figure : Figure α
  deriving Repr, DecidableEq

/-- What a drawing says about itself: its format, its system of measurement, its units, and the number of
the color of its outline layer. -/
structure Header where
  version : String
  measurement : Nat
  units : Nat
  outlineColor : Nat
  deriving Repr, DecidableEq

/-- The layers and entities of a drawing, and whether it has been written out. -/
structure Drawing (α : Type) where
  header : Header
  layers : List String
  entities : List (Entity α)
  saved : Bool
  deriving Repr, DecidableEq

/-- Computations on a drawing that may fail; what was drawn stays. -/
abbrev Drafting (α β : Type) := ExceptT (Fault α) (StateM (Drawing α)) β

namespace Drawing

variable {α : Type}

def outlineLayer : String := "OUTLINE"

/-- Metric, in millimeters, with outlines in white. -/
def metric : Header := ⟨"AC1024", 1, 4, 7⟩

def new : Drawing α := ⟨metric, ["0", "Defpoints", outlineLayer], [], false⟩

/-- Whether a drawing has a layer of this name; small and capital letters are the same. -/
def hasLayer (d : Drawing α) (layer : String) : Bool :=
  d.layers.any fun name => name.toLower == layer.toLower

/-- The drawing with a layer of this name, which is added only if there is none. -/
def withLayer (d : Drawing α) (layer : String) : Drawing α :=
  if d.hasLayer layer then d else { d with layers := d.layers ++ [layer] }

variable [Mul α] [Div α] [OfNat α 0] [OfScientific α] [Elementary α]

def addSegment (layer : String) (o : Operand α) : Drafting α Unit := fun d =>
  match o.require "segment" with
  | .ok s => (.ok (), { d with entities := d.entities ++ [⟨layer, .ofSegment s⟩] })
  | .error fault => (.error fault, d)

def addSegments (layer : String) (outline : List (Operand α)) : Drafting α Unit :=
  outline.forM (addSegment layer)

/-- Adds a layer, draws an outline on it and writes the drawing out. -/
def write (layer : String) (outline : List (Operand α)) : Drafting α Unit := do
  modify (·.withLayer layer)
  addSegments layer outline
  modify fun d => { d with saved := true }

end Drawing

end Contour
