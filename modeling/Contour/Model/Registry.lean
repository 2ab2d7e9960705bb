import Contour.Patch.Basic

/-!
# The registry of patches

A registry keeps the patches of a model in the order in which they were registered, and an index from
their ids to them. It also hands out the ids, each of them once.

* `Registry` — the registered patches, their index, and the number of ids handed out.
* `Registry.issue` — a patch with a new id, not yet registered.
* `Registry.add`, `get?` — registration, and the patch with an id.
* `Registry.find?` — the patch that outside data names.
* `Registry.checkpoint`, `rollback` — a mark, and the way back to it.
* `Registry.cylinders`, `planes` — the registered patches of one kind.
-/

namespace Contour

structure Registry (α : Type) where
  /-- The registered patches, the oldest first. -/
  surfaces : List (Patch α)
  /-- The registered patches by their ids. -/
  index : List (Nat × Patch α)
  /-- How many ids were handed out. -/
  issued : Nat
  deriving Repr, DecidableEq

namespace Registry

variable {α : Type}

def empty : Registry α := ⟨[], [], 0⟩

def size (r : Registry α) : Nat := r.surfaces.length

def issue (r : Registry α) (shape : Shape α) : Patch α × Registry α :=
  (⟨r.issued, shape⟩, { r with issued := r.issued + 1 })

def get? (r : Registry α) (id : Nat) : Option (Patch α) :=
  (r.index.find? fun entry => entry.1 == id).map (·.2)

/-- The registered patch that outside data names. Ids are handed out by registries and never written
down, so no datum names a patch; a list or a record is no name at all. -/
def find? (_ : Registry α) : Datum α → Except (Fault α) (Option (Patch α))
  | .list _ | .record _ => .error .badShape
  | _ => .ok none

/-- Registers a patch, whose id must not be registered yet. -/
def add (r : Registry α) (p : Patch α) : Except (Fault α) (Registry α) :=
  if (r.get? p.id).isSome then .error (.badValue (.alreadyRegistered p.id))
  else .ok { r with surfaces := r.surfaces ++ [p], index := r.index ++ [(p.id, p)] }

def addValue (r : Registry α) (value : Option (Patch α)) : Except (Fault α) (Registry α) := do
  r.add (← Patch.require value)

def checkpoint (r : Registry α) : Nat := r.size

/-- Removes every patch that was registered after a mark. -/
def rollback (r : Registry α) (mark : Int) : Except (Fault α) (Registry α) :=
  if mark < 0 || (r.size : Int) < mark then .error (.badValue (.invalidMark mark))
  else
    let removed := (r.surfaces.drop mark.toNat).map Patch.id
    .ok { r with
      surfaces := r.surfaces.take mark.toNat
      index := r.index.filter fun entry => !removed.contains entry.1 }

def cylinders (r : Registry α) : List (Patch α) := r.surfaces.filter (·.shape.isCylinder)

def planes (r : Registry α) : List (Patch α) := r.surfaces.filter (·.shape.isPlane)

end Registry

end Contour
