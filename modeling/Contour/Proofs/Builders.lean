import Contour.Builder
import Contour.Double.Kernel
import Contour.Proofs.Patches
import Contour.Proofs.Registry

/-!
# The parameters of a builder

A builder is set any number of times and asked for patches in between, in any number of models.  Setting
it may fail at each of the data, or at a check of all of them; a model may have no patch to answer with.
This file says that the builder always has the parameters of the last setting that succeeded, all of
them, and that nothing else leaves a trace.

* `Storing` — computations on a builder that may fail halfway.
* `CylinderBuilder.Fields` — a cylinder builder whose parameters are stored one after the other.
* `Interface` — what a builder answers; `Use`, `Site`, `Interface.after` — sequences of calls.
* `Specification`, `Interface.Obeys` — what single calls should do; `CylinderBuilder.obeys`,
  `CylinderBuilder.Fields.obeys`, `WallBuilder.obeys` — and do.
* `Specification.Asked` — what may become of the call for a patch.
* `Specification.latest` — the parameters of the last setting that succeeds; `Obeys.builder_after`
  says that a builder has them, `Obeys.consistent_after` that the models stay consistent.
* `Interface.Kept`, `Interface.KeepsLatest` — what holds at one point of a sequence, and at all points;
  `Interface.keepsLatest_of_reaches` says that it does.
-/

namespace Contour

/-! ## Builders as objects -/

/-- Computations on a builder that may fail; what was stored before stays. -/
abbrev Storing (σ α β : Type) := ExceptT (Fault α) (StateM σ) β

namespace Storing

variable {σ α β : Type}

/-- A step that stores nothing. -/
def plain (result : Except (Fault α) β) : Storing σ α β := fun s => (result, s)

/-- A step that stores something and cannot fail. -/
def store (f : σ → σ) : Storing σ α Unit := fun s => (.ok (), f s)

/-- Puts a builder in the place of the present one, if there is one to put there. -/
def replace (f : σ → Except (Fault α) σ) : Storing σ α Unit := fun s =>
  match f s with
  | .ok s' => (.ok (), s')
  | .error fault => (.error fault, s)

/-- A builder is put there if its parameters can be read. -/
lemma replace_of_map {P : Type} {f : σ → Except (Fault α) σ} {stored : P → σ}
    {result : Except (Fault α) P} (h : ∀ s, f s = stored <$> result) (s : σ) :
    replace f s = (result.map fun _ => (), result.toOption.elim s stored) := by
  rw [replace, h]
  cases result <;> rfl

end Storing

/-- What a builder of type `σ` answers: it is set from data of type `τ`, and asked for a patch in a
registry, for which it is told `η`. -/
structure Interface (σ τ η α : Type) where
  new : σ
  set : τ → Storing σ α Unit
  instantiate : σ → η → Registering α (Option (Patch α))

/-- The data from which a cylinder builder is set. -/
structure CylinderBuilder.Setting (α : Type) where
  center : Datum α
  start : Datum α
  stop : Datum α
  tol : α

/-- The data from which a wall builder is set. -/
structure WallBuilder.Setting (α : Type) where
  first : Datum α
  second : Datum α
  third : Datum α
  fourth : Datum α

/-- The parameters of a cylinder builder, each of which may be missing. -/
structure CylinderBuilder.Fields (α : Type) where
  center : Option (Point α)
  start : Option (Point α)
  stop : Option (Point α)

section Arithmetic

variable {α : Type} [Add α] [Sub α] [Mul α] [Div α] [LT α] [LE α] [DecidableLT α] [DecidableLE α]
  [BEq α] [OfNat α 0] [OfNat α 1] [OfNat α 2] [OfScientific α] [Elementary α] [Textual α]

def CylinderBuilder.interface : Interface (CylinderBuilder α) (Setting α) (α × α) α where
  new := new
  set x := Storing.replace (·.setParams x.center x.start x.stop x.tol)
  instantiate b heights := b.instantiate .keeping heights.1 heights.2

def WallBuilder.interface : Interface (WallBuilder α) (Setting α) Unit α where
  new := new
  set x := Storing.replace (·.setParams x.first x.second x.third x.fourth)
  instantiate b _ := b.instantiate .keeping

namespace CylinderBuilder.Fields

open Storing

def new : Fields α := ⟨none, none, none⟩

/-- Reads the three points, checks them, and only then stores one after the other. -/
def set (x : Setting α) : Storing (Fields α) α Unit := do
  let c ← plain x.center.toPoint
  let s ← plain x.start.toPoint
  let e ← plain x.stop.toPoint
  if c.agrees s x.tol || c.agrees e x.tol then plain (.error (.badValue .boundaryAtCenter))
  else
    store fun f => { f with center := some (c.withZ 0) }
    store fun f => { f with start := some (s.withZ 0) }
    store fun f => { f with stop := some (e.withZ 0) }

/-- Only the center is asked for before the parameters are used. -/
def instantiate (f : Fields α) (model : Model α) (zTop zBottom : α) :
    Registering α (Option (Patch α)) :=
  match f.center, f.start, f.stop with
  | none, _, _ => throw (.badValue (.unsetBuilder "CylinderBuilder"))
  | some c, some s, some e =>
    Registering.orNone (model.makeCylinder ((Boundary.mk c s e).cylinder zTop zBottom))
  | some _, _, _ => throw .badShape

def interface : Interface (Fields α) (Setting α) (α × α) α where
  new := new
  set := set
  instantiate f heights := f.instantiate .keeping heights.1 heights.2

end CylinderBuilder.Fields

end Arithmetic

/-! ## Sequences of calls -/

/-- The calls on a builder.  A patch may be asked for in any one of several models. -/
inductive Use (ι τ η : Type) where
  | set (x : τ)
  | instantiate (model : ι) (told : η)

/-- A builder and the models that it is used with. -/
structure Site (σ ι α : Type) where
  builder : σ
  models : ι → Registry α

section Sequences

variable {σ τ η ι P α : Type}

/-- What a call leaves. -/
def Interface.step [DecidableEq ι] (k : Interface σ τ η α) (s : Site σ ι α) : Use ι τ η → Site σ ι α
  | .set x => { s with builder := (k.set x s.builder).2 }
  | .instantiate i told =>
    { s with models := Function.update s.models i (k.instantiate s.builder told (s.models i)).2 }

/-- What a sequence of calls on a new builder leaves. -/
def Interface.after [DecidableEq ι] (k : Interface σ τ η α) (models : ι → Registry α)
    (history : List (Use ι τ η)) : Site σ ι α :=
  history.foldl k.step ⟨k.new, models⟩

/-- What the calls on a builder should do: which parameters it reads from the data, how it stores
them, which shape they describe, and what is wrong if there are none. -/
structure Specification (σ τ η P α : Type) where
  read : τ → Except (Fault α) P
  stored : P → σ
  shape : P → η → Except (Fault α) (Shape α)
  unset : BadValue α

/-- The parameters that a call sets, if it sets any. -/
def Specification.taken (spec : Specification σ τ η P α) : Use ι τ η → Option P
  | .set x => (spec.read x).toOption
  | .instantiate _ _ => none

/-- The parameters of the last setting that succeeds. -/
def Specification.latest (spec : Specification σ τ η P α) (history : List (Use ι τ η)) : Option P :=
  (history.filterMap spec.taken).getLast?

/-- **What single calls do.**  The data are read as a whole or not at all, whatever the builder holds;
without parameters there is no patch; with them there is the patch of their shape, or none. -/
structure Interface.Obeys (k : Interface σ τ η α) (spec : Specification σ τ η P α) : Prop where
  set_eq : ∀ x s,
    k.set x s = ((spec.read x).map fun _ => (), (spec.read x).toOption.elim s spec.stored)
  instantiate_new : ∀ told r, k.instantiate k.new told r = (.error (.badValue spec.unset), r)
  instantiate_stored : ∀ p told r, k.instantiate (spec.stored p) told r
    = Registering.orNone (Registering.register (spec.shape p told)) r
  shape_fault : ∀ {p told fault}, spec.shape p told = .error fault → fault.isBadValue = true

/-- **What becomes of the call for a patch**: it fails without parameters; the patch of their shape is
registered, just the one that is returned; or there is no such patch and the model is left as it was. -/
inductive Specification.Asked (spec : Specification σ τ η P α) (told : η) (r : Registry α) :
    Option P → Except (Fault α) (Option (Patch α)) × Registry α → Prop
  | unset : Asked spec told r none (.error (.badValue spec.unset), r)
  | made {p : P} {shape : Shape α} (h : spec.shape p told = .ok shape) :
      Asked spec told r (some p) (.ok (some ⟨r.issued, shape⟩), r.grow shape)
  | none {p : P} {fault : Fault α} (h : spec.shape p told = .error fault) :
      Asked spec told r (some p) (.ok .none, r)

variable {k : Interface σ τ η α} {spec : Specification σ τ η P α} {models : ι → Registry α}

lemma Specification.latest_append (history : List (Use ι τ η)) (c : Use ι τ η) :
    spec.latest (history ++ [c]) = (spec.taken c).or (spec.latest history) := by
  rw [latest, List.filterMap_append, List.getLast?_append]
  cases htaken : spec.taken c with
  | none =>
      rw [List.filterMap_cons_none htaken]
      rfl
  | some p =>
      rw [List.filterMap_cons_some htaken]
      rfl

namespace Specification.Asked

variable {told : η} {r : Registry α} {latest : Option P}
  {result : Except (Fault α) (Option (Patch α)) × Registry α}

lemma consistent (h : spec.Asked told r latest result) (hr : r.Consistent) : result.2.Consistent := by
  cases h with
  | unset => exact hr
  | made _ => exact hr.of_change (hr.change_grow _)
  | none _ => exact hr

lemma fails_iff (h : spec.Asked told r latest result) :
    (∃ fault, result.1 = .error fault) ↔ latest = .none := by
  cases h with
  | unset => exact ⟨fun _ => rfl, fun _ => ⟨_, rfl⟩⟩
  | made _ => exact ⟨nofun, nofun⟩
  | none _ => exact ⟨nofun, nofun⟩

end Specification.Asked

namespace Interface.Obeys

variable (h : k.Obeys spec)

include h

/-! ## One call -/

lemma asked (told : η) {r : Registry α} (hr : r.Consistent) (latest : Option P) :
    spec.Asked told r latest (k.instantiate (latest.elim k.new spec.stored) told r) := by
  cases latest with
  | none =>
      rw [Option.elim_none, h.instantiate_new]
      exact .unset
  | some p =>
      rw [Option.elim_some, h.instantiate_stored]
      cases hshape : spec.shape p told with
      | ok shape =>
          rw [Registering.orNone_register_ok (hr.get?_of_issued_le le_rfl)]
          exact .made hshape
      | error fault =>
          rw [Registering.orNone_register_error (h.shape_fault hshape)]
          exact .none hshape

lemma builder_step [DecidableEq ι] (s : Site σ ι α) (c : Use ι τ η) :
    (k.step s c).builder = (spec.taken c).elim s.builder spec.stored := by
  cases c with
  | set x => exact congrArg Prod.snd (h.set_eq x s.builder)
  | instantiate i told => rfl

lemma consistent_step [DecidableEq ι] {s : Site σ ι α} {latest : Option P}
    (hbuilder : s.builder = latest.elim k.new spec.stored) (hmodels : ∀ i, (s.models i).Consistent)
    (c : Use ι τ η) (i : ι) : ((k.step s c).models i).Consistent := by
  cases c with
  | set x => exact hmodels i
  | instantiate j told =>
      show (Function.update s.models j (k.instantiate s.builder told (s.models j)).2 i).Consistent
      -- a builder without parameters fails, so it has to be known what it holds
      by_cases hij : i = j
      · subst hij
        rw [Function.update_self, hbuilder]
        exact (h.asked told (hmodels i) latest).consistent (hmodels i)
      · rw [Function.update_of_ne hij]
        exact hmodels i

end Interface.Obeys

/-! ## Sequences of calls -/

variable [DecidableEq ι]

lemma Interface.after_append (history : List (Use ι τ η)) (c : Use ι τ η) :
    k.after models (history ++ [c]) = k.step (k.after models history) c := by
  rw [after, List.foldl_append]
  rfl

namespace Interface.Obeys

variable (h : k.Obeys spec)

include h

/-- **The builder has the parameters of the last setting that succeeded**, or none. -/
lemma builder_after (models : ι → Registry α) (history : List (Use ι τ η)) :
    (k.after models history).builder = (spec.latest history).elim k.new spec.stored := by
  induction history using List.reverseRecOn with
  | nil => rfl
  | append_singleton history c ih =>
      rw [after_append, h.builder_step, ih, Specification.latest_append]
      cases spec.taken c with
      | none => rfl
      | some p => rfl

/-- **The models stay consistent.** -/
lemma consistent_after (hmodels : ∀ i, (models i).Consistent) (history : List (Use ι τ η)) (i : ι) :
    ((k.after models history).models i).Consistent := by
  induction history using List.reverseRecOn generalizing i with
  | nil => exact hmodels i
  | append_singleton history c ih =>
      rw [after_append]
      exact h.consistent_step (h.builder_after models history) ih c i

end Interface.Obeys

/-- **What holds of a builder and its models at one point of a sequence of calls**, and of the next
call, whichever it is. -/
structure Interface.Kept (k : Interface σ τ η α) (spec : Specification σ τ η P α) (s : Site σ ι α)
    (latest : Option P) : Prop where
  /-- The parameters are those of the last setting that succeeded. -/
  params : s.builder = latest.elim k.new spec.stored
  /-- A setting succeeds if its data can be read, and changes no model. -/
  set_iff : ∀ x, (k.set x s.builder).1 = .ok () ↔ ∃ p, spec.read x = .ok p
  set_models : ∀ x, (k.step s (.set x)).models = s.models
  /-- A setting that fails changes nothing. -/
  set_failed : ∀ x fault, (k.set x s.builder).1 = .error fault → k.step s (.set x) = s
  asked : ∀ i told, spec.Asked told (s.models i) latest (k.instantiate s.builder told (s.models i))
  /-- To ask for a patch fails if no setting has succeeded, and only then. -/
  fails_iff : ∀ i told,
    (∃ fault, (k.instantiate s.builder told (s.models i)).1 = .error fault) ↔ latest = none
  /-- It never changes the builder, nor a model that is not asked. -/
  builder : ∀ i told, (k.step s (.instantiate i told)).builder = s.builder
  others : ∀ i told j, j ≠ i → (k.step s (.instantiate i told)).models j = s.models j

/-- **A builder keeps its last good parameters** through every sequence of calls on it and some
models. -/
def Interface.KeepsLatest (k : Interface σ τ η α) (spec : Specification σ τ η P α) (models : ι → Registry α) :
    Prop :=
  ∀ history : List (Use ι τ η), k.Kept spec (k.after models history) (spec.latest history)

lemma Interface.Obeys.keepsLatest (h : k.Obeys spec) (hmodels : ∀ i, (models i).Consistent) :
    k.KeepsLatest spec models := by
  intro history
  have hparams := h.builder_after models history
  have hasked := fun i told => h.asked told (h.consistent_after hmodels history i)
    (spec.latest history)
  simp only [← hparams] at hasked
  constructor
  case params => exact hparams
  case set_iff =>
    intro x
    rw [h.set_eq]
    cases spec.read x with
    | error fault => exact ⟨nofun, nofun⟩
    | ok p => exact ⟨fun _ => ⟨p, rfl⟩, fun _ => rfl⟩
  case set_models => exact fun x => rfl
  case set_failed =>
    intro x fault hfault
    rw [step]
    rw [h.set_eq] at hfault ⊢
    cases hread : spec.read x with
    | error fault' => rfl
    | ok p =>
        rw [hread] at hfault
        cases hfault
  case asked => exact hasked
  case fails_iff => exact fun i told => (hasked i told).fails_iff
  case builder => exact fun i told => rfl
  case others => exact fun i told j hj => Function.update_of_ne hj _ _

end Sequences

/-! ## Cylinder builders and wall builders -/

section Reading

variable {α : Type} [OfNat α 0] [OfNat α 1] [Elementary α] [Textual α]

namespace WallBuilder

/-- The data are four points. -/
def Setting.read (x : Setting α) : Except (Fault α) (Quad α) := do
  return ⟨← x.first.toPoint, ← x.second.toPoint, ← x.third.toPoint, ← x.fourth.toPoint⟩

lemma setParams_eq (b : WallBuilder α) (x : Setting α) :
    b.setParams x.first x.second x.third x.fourth = (fun q => ⟨some q⟩) <$> x.read := by
  simp only [setParams, Setting.read, map_bind, map_pure]

end WallBuilder

namespace CylinderBuilder

open Storing

variable [Sub α] [LE α] [DecidableLE α]

/-- The data are three points that pass the check of a boundary, which drops their heights. -/
def Setting.read (x : Setting α) : Except (Fault α) (Boundary α) := do
  let c ← x.center.toPoint
  let s ← x.start.toPoint
  let e ← x.stop.toPoint
  Boundary.ofPoints c s e x.tol

lemma setParams_eq (b : CylinderBuilder α) (x : Setting α) :
    b.setParams x.center x.start x.stop x.tol = (fun p => ⟨some p⟩) <$> x.read := by
  simp only [setParams, Setting.read, map_bind, bind_pure_comp]

/-- To store the parameters one after the other, once they are checked, is to store them at once. -/
lemma Fields.set_eq (x : Setting α) (f : Fields α) :
    Fields.set x f = (x.read.map fun _ => (),
      x.read.toOption.elim f fun p => ⟨some p.center, some p.start, some p.stop⟩) := by
  unfold Fields.set Setting.read
  cases x.center.toPoint with
  | error fault => rfl
  | ok c =>
      cases x.start.toPoint with
      | error fault => rfl
      | ok s =>
          cases x.stop.toPoint with
          | error fault => rfl
          | ok e =>
              -- the check of the three points is that of a boundary
              show (if c.agrees s x.tol || c.agrees e x.tol then plain _ else _ : Storing _ _ _) f
                = ((Boundary.ofPoints c s e x.tol).map fun _ => (),
                  (Boundary.ofPoints c s e x.tol).toOption.elim f _)
              unfold Boundary.ofPoints
              split_ifs
              · rfl
              · rfl

end CylinderBuilder

end Reading

namespace WallBuilder

variable {α : Type} [Add α] [Sub α] [Mul α] [Div α] [LT α] [DecidableLT α] [BEq α] [OfNat α 0]
  [OfNat α 1] [OfScientific α] [Elementary α] [Textual α]

/-- What a wall builder should do. -/
def specification : Specification (WallBuilder α) (Setting α) Unit (Quad α) α where
  read := Setting.read
  stored q := ⟨some q⟩
  shape q _ := (Plane.ofCorners q coincidentTol).map .plane
  unset := .unsetBuilder "WallBuilder"

lemma obeys [LawfulZero α] : (interface : Interface (WallBuilder α) _ _ α).Obeys specification where
  set_eq x := Storing.replace_of_map (setParams_eq · x)
  instantiate_new _ _ := rfl
  instantiate_stored _ _ _ := rfl
  shape_fault h := Plane.ofCorners_fault (error_of_map h)

end WallBuilder

section Arithmetic

variable {α : Type} [Add α] [Sub α] [Mul α] [Div α] [LT α] [LE α] [DecidableLT α] [DecidableLE α]
  [OfNat α 0] [OfNat α 1] [OfNat α 2] [OfScientific α] [Elementary α] [Textual α]

namespace CylinderBuilder

/-- What a cylinder builder should do that stores a boundary in the given way. -/
def specification {σ : Type} (stored : Boundary α → σ) :
    Specification σ (Setting α) (α × α) (Boundary α) α where
  read := Setting.read
  stored := stored
  shape b heights := (b.cylinder heights.1 heights.2).map .cylinder
  unset := .unsetBuilder "CylinderBuilder"

lemma obeys : (interface : Interface (CylinderBuilder α) _ _ α).Obeys (specification fun p => ⟨some p⟩) where
  set_eq x := Storing.replace_of_map (setParams_eq · x)
  instantiate_new _ _ := rfl
  instantiate_stored _ _ _ := rfl
  shape_fault h := Cylinder.ofRanges_fault (error_of_map h)

lemma Fields.obeys : (Fields.interface : Interface (Fields α) _ _ α).Obeys
    (specification fun p => ⟨some p.center, some p.start, some p.stop⟩) where
  set_eq := Fields.set_eq
  instantiate_new _ _ := rfl
  instantiate_stored _ _ _ := rfl
  shape_fault h := Cylinder.ofRanges_fault (error_of_map h)

end CylinderBuilder

variable [BEq α] [LawfulZero α] {ι : Type} [DecidableEq ι]

/-- **Builders keep their last good parameters**, in every arithmetic in which zero is small and with
models of any history: a cylinder builder, the same if it stores its parameters one after the other,
and a wall builder. -/
theorem Interface.keepsLatest_of_reaches {models : ι → Registry α}
    (h : ∀ i, Registry.Reaches 0 .empty (models i)) :
    CylinderBuilder.interface.KeepsLatest (CylinderBuilder.specification fun p => ⟨some p⟩) models ∧
    CylinderBuilder.Fields.interface.KeepsLatest
      (CylinderBuilder.specification fun p => ⟨some p.center, some p.start, some p.stop⟩) models ∧
    WallBuilder.interface.KeepsLatest WallBuilder.specification models := by
  have hmodels := fun i => Registry.consistent_empty.of_reaches (h i)
  exact ⟨CylinderBuilder.obeys.keepsLatest hmodels, CylinderBuilder.Fields.obeys.keepsLatest hmodels,
    WallBuilder.obeys.keepsLatest hmodels⟩

end Arithmetic

/-! ## Builders of doubles -/

namespace CylinderBuilder

/-- A quarter of a cylinder of radius five, given at three heights. -/
def quarter : Setting Float := ⟨.point ⟨0, 0, 1⟩, .point ⟨5, 0, 2⟩, .point ⟨0, 5, 3⟩, coincidentTol⟩

/-- Two points and nothing. -/
def unfinished : Setting Float := ⟨.point ⟨7, 0, 0⟩, .point ⟨9, 0, 0⟩, .null, coincidentTol⟩

/-- A cylinder that ends at its center. -/
def collapsed : Setting Float :=
  ⟨.point ⟨7, 0, 0⟩, .point ⟨9, 0, 0⟩, .point ⟨7, 0, 0⟩, coincidentTol⟩

/-- The quarter is set and asked for, and then two settings fail. -/
def visits : List (Use Bool (Setting Float) (Float × Float)) :=
  [.set quarter, .instantiate true (2, 0), .set unfinished, .set collapsed]

lemma latest_visits : (specification fun p => CylinderBuilder.mk (some p)).latest visits
    = some ⟨⟨0, 0, 0⟩, ⟨5, 0, 0⟩, ⟨0, 5, 0⟩⟩ := by
  have hquarter : quarter.read = .ok ⟨⟨0, 0, 0⟩, ⟨5, 0, 0⟩, ⟨0, 5, 0⟩⟩ := by
    show Boundary.ofPoints ⟨0, 0, 1⟩ ⟨5, 0, 2⟩ ⟨0, 5, 3⟩ (coincidentTol : Float) = _
    exact if_neg (by decide +kernel)
  have hcollapsed : collapsed.read = .error (.badValue .boundaryAtCenter) := by
    show Boundary.ofPoints ⟨7, 0, 0⟩ ⟨9, 0, 0⟩ ⟨7, 0, 0⟩ (coincidentTol : Float) = _
    exact if_pos (by decide +kernel)
  have htaken : (specification fun p => CylinderBuilder.mk (some p)).taken (ι := Bool) (.set quarter)
      = some ⟨⟨0, 0, 0⟩, ⟨5, 0, 0⟩, ⟨0, 5, 0⟩⟩ := congrArg Except.toOption hquarter
  have hdropped : (specification fun p => CylinderBuilder.mk (some p)).taken (ι := Bool)
      (.set collapsed) = none := congrArg Except.toOption hcollapsed
  rw [Specification.latest, visits, List.filterMap_cons_some htaken, List.filterMap_cons_none rfl,
    List.filterMap_cons_none rfl, List.filterMap_cons_none hdropped]
  rfl

end CylinderBuilder

/-- After two settings that failed a builder of doubles still has the quarter. -/
theorem Interface.keepsLatest_of_reaches_quarter :
    Registry.Reaches 0 .empty (.empty : Registry Float) ∧
    (CylinderBuilder.interface.after (fun _ => .empty) CylinderBuilder.visits).builder
      = ⟨some ⟨⟨0, 0, 0⟩, ⟨5, 0, 0⟩, ⟨0, 5, 0⟩⟩⟩ := by
  have hempty : Registry.Reaches 0 .empty (.empty : Registry Float) := .refl
  have hkept := (keepsLatest_of_reaches fun _ : Bool => hempty).1 CylinderBuilder.visits
  refine ⟨hempty, hkept.params.trans ?_⟩
  rw [CylinderBuilder.latest_visits]
  rfl

end Contour
