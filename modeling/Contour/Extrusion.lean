import Contour.Builder
import Contour.Diagnostic.Draft
import Contour.Operand

/-!
# Vertical extrusion

A segment is swept between two heights into a patch of a model: curves become parts of cylinders,
lines become walls. A whole outline is extruded all or nothing.

* `Workshop`, `Building` — a registry and a log, and computations on them.
* `Segment.extrude` — the patch of a segment between two heights that are numbers.
* `Heights` — two heights as they are handed in, with `Heights.tooClose` and `Heights.numbers`.
* `Heights.ask` — the patch of a segment between such heights.
* `Heights.place`, `Heights.extrude` — the same for an operand and a model that may be missing, with
  reports.
* `Heights.extrudeAll` — the patches of an outline.
* `Operand.extrude`, `Operand.extrudeAll` — the same between heights that are numbers.
-/

namespace Contour

/-- Where patches are built: the registry of the model, and the log of the caller. -/
structure Workshop (α : Type) where
  registry : Registry α
  log : Log α
  deriving Repr, DecidableEq

/-- Computations in a workshop that may fail; what they did to it stays. -/
abbrev Building (α β : Type) := ExceptT (Fault α) (StateM (Workshop α)) β

namespace Building

variable {α β : Type}

def onRegistry (action : Registering α β) : Building α β := fun w =>
  let (result, registry) := action w.registry
  (result, { w with registry })

def onLog (action : Reporting α β) : Building α β := fun w =>
  let (result, log) := action w.log
  (result, { w with log })

def refuse (c : Complaint α) : Building α β := onLog (logged (Contour.refuse c))

/-- Undoes what an action did to the registry if it fails with a diagnostic; other faults pass. -/
def undoing (action : Building α β) (undo : Registering α Unit) : Building α β := fun w =>
  match action w with
  | (.error (.diagnosed d), w') =>
    match onRegistry undo w' with
    | (.ok (), w'') => (.error (.diagnosed d), w'')
    | (.error fault, w'') => (.error fault, w'')
  | result => result

end Building

variable {α : Type} [Add α] [Sub α] [Mul α] [Div α] [LT α] [LE α] [DecidableLT α] [DecidableLE α] [BEq α]
  [OfNat α 0] [OfNat α 1] [OfNat α 2] [OfScientific α] [Elementary α]

/-- The corners of the wall over a line: its ends at the top, and back at the bottom. -/
def Line.wall (l : Line α) (zTop zBottom : α) : Quad α :=
  ⟨l.start.withZ zTop, l.stop.withZ zTop, l.stop.withZ zBottom, l.start.withZ zBottom⟩

def Segment.surfaceName : Segment α → String
  | line _ => "wall"
  | curve _ => "cylinder"

/-- Asks a model for the patch over a segment between two heights; none if there is no such patch. -/
def Segment.extrude (s : Segment α) (model : Model α) (zTop zBottom : α) :
    Registering α (Option (Patch α)) :=
  match s with
  | line l => WallBuilder.instantiate ⟨some (l.wall zTop zBottom)⟩ model
  | curve c =>
    match Boundary.ofPoints c.center c.start c.stop coincidentTol with
    | .ok boundary => CylinderBuilder.instantiate ⟨some boundary⟩ model zTop zBottom
    | .error _ => return none

/-- Two heights, and the least distance between them that is used, as they are handed in. -/
structure Heights (α : Type) where
  top : Datum α
  bottom : Datum α
  tol : Datum α

namespace Heights

def ofNumbers (zTop zBottom tol : α) : Heights α := ⟨.real zTop, .real zBottom, .real tol⟩

/-- Whether the heights are too close, which only numbers are or are not. -/
def tooClose (h : Heights α) : Except (Fault α) Bool := do
  (← h.top.gap h.bottom).less h.tol

def numbers (h : Heights α) : Except (Fault α) (α × α) := do
  return (← h.top.operand, ← h.bottom.operand)

/-- Asks a model for the patch over a segment. The corners of a wall need the numbers at once, a cylinder
only after its boundary and its radius were checked. -/
def ask (h : Heights α) (s : Segment α) (model : Model α) : Registering α (Option (Patch α)) :=
  match h.numbers with
  | .ok (zTop, zBottom) => s.extrude model zTop zBottom
  | .error fault =>
    match s with
    | .line _ => throw fault
    | .curve c =>
      match Boundary.ofPoints c.center c.start c.stop coincidentTol with
      | .ok boundary => Registering.orNone (model.makeCylinder do
          Cylinder.checkRadius boundary.radius
          throw fault)
      | .error _ => return none

/-- Extrudes an operand between heights that are apart. What is no segment is refused first, then a missing
model, and last a patch that the model does not make. -/
def place (h : Heights α) (model : Option (Model α)) (o : Operand α) : Building α (Patch α) := do
  let s ← Building.onLog (logged (o.require "segment"))
  match model with
  | none => Building.refuse .nullModel
  | some model =>
    match ← Building.onRegistry (h.ask s model) with
    | some p => return p
    | none => Building.refuse (.surfaceConstruction s.surfaceName)

/-- Extrudes an operand in a model. Heights that are too close are refused before anything else. -/
def extrude (h : Heights α) (model : Option (Model α)) (o : Operand α) : Building α (Patch α) := do
  if ← Building.onLog (unlogged h.tooClose) then
    Building.onLog (logged (Draft.refuse (.degenerateExtrusion h.top h.bottom)))
  else h.place model o

/-- Extrudes every operand of an outline in order. If one is refused, the patches of those before it
are removed again. -/
def extrudeAll (h : Heights α) (model : Option (Model α)) (outline : List (Operand α)) :
    Building α (List (Patch α)) := do
  match model with
  | none => Building.refuse .nullModel
  | some model =>
    let mark ← Building.onRegistry model.checkpoint
    Building.undoing (outline.mapM fun o => h.extrude (some model) o) (model.rollback mark)

end Heights

namespace Operand

/-- Extrudes an operand in a model between two heights that are numbers. -/
def extrude (model : Option (Model α)) (o : Operand α) (zTop zBottom tol : α) : Building α (Patch α) :=
  (Heights.ofNumbers zTop zBottom tol).extrude model o

/-- Extrudes every operand of an outline between two heights that are numbers. -/
def extrudeAll (model : Option (Model α)) (outline : List (Operand α)) (zTop zBottom tol : α) :
    Building α (List (Patch α)) :=
  (Heights.ofNumbers zTop zBottom tol).extrudeAll model outline

end Operand

end Contour
