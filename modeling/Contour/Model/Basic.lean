import Contour.Model.Registry

/-!
# Models

A model makes patches for the builders. It answers with the patch, or with none if there is no such
patch, and a failed call leaves it as it was.

* `Registering` — computations on a registry.
* `Model` — what builders ask of a model.
* `Model.add`, `get?`, `find?` — what callers ask of a model that lets them at its registry.
* `Model.keeping` — registers every patch that it makes.
* `Model.withoutCylinders` — the same, but never makes a part of a cylinder.
* `Model.bare` — hands patches out without registering them, and cannot undo.
* `Model.absent` — no model: nothing can be asked of it.
-/

namespace Contour

/-- Computations that work on a registry and may fail; what was registered stays. -/
abbrev Registering (α β : Type) := ExceptT (Fault α) (StateM (Registry α)) β

/-- What builders and callers ask of a model. -/
structure Model (α : Type) where
  makeCylinder : Except (Fault α) (Cylinder α) → Registering α (Option (Patch α))
  makePlane : Except (Fault α) (Plane α) → Registering α (Option (Patch α))
  /-- The mark of the present state. -/
  checkpoint : Registering α Nat
  /-- Removes what was made after a mark. -/
  rollback : Int → Registering α Unit
  /-- Fails unless callers may register and look up patches themselves. -/
  access : Registering α Unit

namespace Registering

variable {α β : Type}

def issue (shape : Shape α) : Registering α (Patch α) := fun r =>
  let (p, r) := r.issue shape
  (.ok p, r)

/-- Changes the registry, which stays as it is if the change fails. -/
def change (f : Registry α → Except (Fault α) (Registry α)) : Registering α Unit := fun r =>
  match f r with
  | .ok r' => (.ok (), r')
  | .error fault => (.error fault, r)

/-- Registers a patch, as `Registry.add` does. -/
def add (p : Patch α) : Registering α Unit := change (·.add p)

/-- Makes and registers a patch of a shape; a bad value in its description means that there is none. -/
def register (description : Except (Fault α) (Shape α)) : Registering α (Option (Patch α)) :=
  match description with
  | .ok shape => do
    let p ← issue shape
    add p
    return some p
  | .error fault => if fault.isBadValue then return none else throw fault

/-- Answers none instead of failing on a bad value. -/
def orNone (action : Registering α (Option β)) : Registering α (Option β) := fun r =>
  match action r with
  | (.error fault, r') => if fault.isBadValue then (.ok none, r') else (.error fault, r')
  | result => result

end Registering

namespace Model

variable {α : Type}

def add (m : Model α) (value : Option (Patch α)) : Registering α Unit := do
  m.access
  Registering.change (·.addValue value)

def get? (m : Model α) (id : Nat) : Registering α (Option (Patch α)) := do
  m.access
  return (← get).get? id

def find? (m : Model α) (name : Datum α) : Registering α (Option (Patch α)) := do
  m.access
  let registry ← get
  registry.find? name

/-- Registers every patch that it makes. -/
def keeping : Model α where
  makeCylinder description := Registering.register (description.map .cylinder)
  makePlane description := Registering.register (description.map .plane)
  checkpoint := do return (← get).checkpoint
  rollback mark := Registering.change (·.rollback mark)
  access := return ()

/-- Registers flat patches and never makes a part of a cylinder. -/
def withoutCylinders : Model α := { keeping with makeCylinder := fun _ => return none }

/-- Hands patches out without registering them. The name is that of the kind of model. -/
def bare (name : String) : Model α where
  makeCylinder description := do
    match description with
    | .ok c => return some (← Registering.issue (.cylinder c))
    | .error fault => throw fault
  makePlane description := do
    match description with
    | .ok p => return some (← Registering.issue (.plane p))
    | .error fault => throw fault
  checkpoint := throw (.noRollback name)
  rollback _ := throw (.noRollback name)
  access := throw .unsupported

/-- No model: nothing can be asked of it. -/
def absent : Model α where
  makeCylinder _ := throw .unsupported
  makePlane _ := throw .unsupported
  checkpoint := throw .unsupported
  rollback _ := throw .unsupported
  access := throw .unsupported

end Model

end Contour
