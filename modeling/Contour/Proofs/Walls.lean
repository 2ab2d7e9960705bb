import Contour.Proofs.Reports
import Contour.Proofs.Sweep

/-!
# Extruding an outline

The patches over an outline are registered one after the other.  If an operand fails, the registry is
cut back to what it was.  Only a refusal is undone; but whatever else can fail lies in the heights and
fails at the first operand, before there is anything to undo.

* `Operand.swept`, `Heights.Spans` — the shape over an operand between two heights, and between what
  is handed in for them.
* `Heights.Extruded`, `Heights.extruded` — what becomes of one operand.
* `Heights.Walls`, `Heights.walled` — what becomes of an outline before anything is undone.
* `Heights.AllOrNothing`, `Heights.extrudeAll_all_or_nothing` — what becomes of it in the end.
-/

namespace Contour

variable {α : Type}

/-! ## What is undone -/

namespace Building

variable {β : Type} {action : Building α β} {undo : Registering α Unit} {w w' : Workshop α}

lemma undoing_of_ok {b : β} (h : action w = (.ok b, w')) : undoing action undo w = (.ok b, w') := by
  simp only [undoing, h]

/-- A refusal is undone. -/
lemma undoing_of_diagnosed {d : Refusal α} {r : Registry α}
    (h : action w = (.error (.diagnosed d), w')) (hundo : undo w'.registry = (.ok (), r)) :
    undoing action undo w = (.error (.diagnosed d), { w' with registry := r }) := by
  simp only [undoing, h, onRegistry, hundo]

/-- Any other fault passes, and nothing is undone. -/
lemma undoing_of_fault {fault : Fault α} (h : action w = (.error fault, w'))
    (hfault : ∀ d, fault ≠ .diagnosed d) : undoing action undo w = (.error fault, w') := by
  cases fault with
  | diagnosed d => exact absurd rfl (hfault d)
  | _ => simp only [undoing, h]

end Building

section Arithmetic

variable [Add α] [Sub α] [Mul α] [Div α] [LT α] [LE α] [DecidableLT α] [DecidableLE α]
  [BEq α] [OfNat α 0] [OfNat α 1] [OfNat α 2] [OfScientific α] [Elementary α]

/-- The shape over an operand between two heights. -/
def Operand.swept (o : Operand α) (zTop zBottom : α) : Except (Fault α) (Shape α) := do
  (← o.require "segment").swept zTop zBottom

/-! ## What may become of an operand and of an outline -/

namespace Heights

/-- A shape over an operand: the heights are numbers and apart, and it is the one between them. -/
structure Spans (h : Heights α) (o : Operand α) (shape : Shape α) : Prop where
  apart : h.tooClose = .ok false
  swept : ∃ zTop zBottom, h.numbers = .ok (zTop, zBottom) ∧ o.swept zTop zBottom = .ok shape

/-- What becomes of an operand that is extruded: it is made into a patch, or it has no shape.  If it is
not refused, then because of the heights, and no other operand has a shape either. -/
inductive Extruded (h : Heights α) (o : Operand α) (r : Registry α) :
    Except (Fault α) (Patch α) → Registry α → Prop where
  | made {shape : Shape α} (hshape : h.Spans o shape) :
      Extruded h o r (.ok ⟨r.issued, shape⟩) (r.grow shape)
  | refused (d : Refusal α) (hnone : ∀ shape, ¬ h.Spans o shape) :
      Extruded h o r (.error (.diagnosed d)) r
  | unusable (fault : Fault α) (hnone : ∀ o shape, ¬ h.Spans o shape) :
      Extruded h o r (.error fault) r

/-- The patches over an outline stand in a registry after those that stood there before. -/
structure Walls (h : Heights α) (outline : List (Operand α)) (r : Registry α) (new : List (Patch α))
    (r' : Registry α) : Prop where
  surfaces : r'.surfaces = r.surfaces ++ new
  index : r'.index = r.index ++ new.map fun p => (p.id, p)
  consistent : r'.Consistent
  shapes : List.Forall₂ (fun o p => h.Spans o p.shape) outline new

/-- **All or nothing.**  What becomes of an outline that is extruded in a registry. -/
structure AllOrNothing (h : Heights α) (outline : List (Operand α)) (r : Registry α)
    (result : Except (Fault α) (List (Patch α))) (r' : Registry α) : Prop where
  all : ∀ new, result = .ok new → h.Walls outline r new r'
  nothing : ∀ fault, result = .error fault → r.Unchanged r'
  /-- Nothing fails without a reason. -/
  flawed : ∀ fault, result = .error fault → ∃ o ∈ outline, ∀ shape, ¬ h.Spans o shape

variable {h : Heights α} {o : Operand α} {outline : List (Operand α)} {w : Workshop α}

lemma walls_nil {r : Registry α} (hr : r.Consistent) : h.Walls [] r [] r :=
  ⟨(List.append_nil _).symm, (List.append_nil _).symm, hr, .nil⟩

lemma Walls.cons {r r' : Registry α} {new : List (Patch α)} {shape : Shape α}
    (hshape : h.Spans o shape) (hwalls : h.Walls outline (r.grow shape) new r') :
    h.Walls (o :: outline) r (⟨r.issued, shape⟩ :: new) r' := by
  obtain ⟨hsurfaces, hindex, hconsistent, hshapes⟩ := hwalls
  refine ⟨?_, ?_, hconsistent, .cons hshape hshapes⟩
  · rw [hsurfaces]
    exact List.append_assoc _ [_] new
  · rw [hindex]
    exact List.append_assoc _ [_] _

/-- Between unusable heights there are no walls. -/
lemma Walls.eq_nil {r r' : Registry α} {new : List (Patch α)} (hwalls : h.Walls outline r new r')
    (hnone : ∀ o shape, ¬ h.Spans o shape) : new = [] := by
  cases hwalls.shapes with
  | nil => rfl
  | cons hshape _ => exact absurd hshape (hnone _ _)

lemma extrudeAll_eq (outline : List (Operand α)) (w : Workshop α) :
    h.extrudeAll (some .keeping) outline w
      = Building.undoing (outline.mapM fun o => h.extrude (some .keeping) o)
          (Model.keeping.rollback w.registry.size) w := by
  rfl

end Heights

/-! ## One operand -/

variable [LawfulZero α] {s : Segment α} {zTop zBottom tol : α}

/-- Where there is no shape over a segment, the fault lies in the segment or in the heights. -/
lemma Segment.swept_fault {fault : Fault α} (h : s.swept zTop zBottom = .error fault) :
    fault.isBadValue = true := by
  cases s with
  | line l => exact Plane.ofCorners_fault (error_of_map h)
  | curve c =>
      cases hboundary : Boundary.ofPoints c.center c.start c.stop (coincidentTol : α) with
      | error fault' =>
          rw [swept, hboundary] at h
          cases h
          exact Boundary.ofPoints_fault hboundary
      | ok boundary =>
          rw [swept_of_boundary c hboundary] at h
          exact Cylinder.ofRanges_fault (error_of_map h)

/-- Where there is no shape, the registry is left alone and there is no answer. -/
lemma Segment.extrude_of_fault {r : Registry α} {fault : Fault α}
    (h : s.swept zTop zBottom = .error fault) :
    s.extrude .keeping zTop zBottom r = (.ok none, r) := by
  rw [extrude_keeping, h, Registering.orNone_register_error (swept_fault h)]

namespace Heights

variable {h : Heights α}

/-- What becomes of a segment between heights that are apart. -/
lemma extruded_segment (hclose : h.tooClose = .ok false) (s : Segment α) {w : Workshop α}
    (hw : w.registry.Consistent) :
    h.Extruded (.segment s) w.registry (h.place (some .keeping) (.segment s) w).1
      (h.place (some .keeping) (.segment s) w).2.registry := by
  cases hnumbers : h.numbers with
  | error fault =>
      have hnone : ∀ o shape, ¬ h.Spans o shape := by
        rintro o shape ⟨-, zTop, zBottom, hspans, -⟩
        cases hnumbers.symm.trans hspans
      rcases ask_keeping_of_fault hnumbers s w.registry with hask | hask
      · rw [place_of_none hask]
        exact .refused (.ofComplaint (.surfaceConstruction s.surfaceName)) (hnone _)
      · rw [place_of_fault hask]
        exact .unusable fault hnone
  | ok z =>
      obtain ⟨zTop, zBottom⟩ := z
      have hask := ask_of_numbers hnumbers s .keeping
      cases hswept : s.swept zTop zBottom with
      | error fault =>
          rw [place_of_none (r := w.registry) (by rw [hask, s.extrude_of_fault hswept])]
          refine .refused (.ofComplaint (.surfaceConstruction s.surfaceName)) ?_
          rintro shape ⟨-, _, _, hspans, hshape⟩
          cases hnumbers.symm.trans hspans
          cases hswept.symm.trans hshape
      | ok shape =>
          rw [place_of_made (by rw [hask, s.extrude_of_swept (hw.get?_of_issued_le le_rfl) hswept])]
          exact .made ⟨hclose, zTop, zBottom, hnumbers, hswept⟩

/-- **What becomes of one operand.** -/
lemma extruded (h : Heights α) (o : Operand α) {w : Workshop α} (hw : w.registry.Consistent) :
    h.Extruded o w.registry (h.extrude (some .keeping) o w).1
      (h.extrude (some .keeping) o w).2.registry := by
  cases hclose : h.tooClose with
  | error fault =>
      rw [extrude_of_fault hclose]
      exact .unusable fault fun _ _ hspans => nomatch hclose.symm.trans hspans.apart
  | ok close =>
      cases close with
      | true =>
          obtain ⟨fault, hfault⟩ : ∃ fault, (Draft.degenerateExtrusion h.top h.bottom).refuse
              = (.error fault : Except (Fault α) (Patch α)) := Draft.exists_refuse_eq _
          rw [extrude_of_tooClose hclose, hfault, Building.onLog_logged]
          exact .unusable fault fun _ _ hspans => nomatch hclose.symm.trans hspans.apart
      | false =>
          rw [extrude_of_apart hclose]
          cases o with
          | other =>
              refine .refused (.ofComplaint (.emptySegment "segment")) ?_
              rintro _ ⟨-, _, _, -, ⟨⟩⟩
          | segment s => exact extruded_segment hclose s hw

/-! ## Outlines -/

/-- **What becomes of an outline** before anything is undone: it has all its walls, or it has walls over
the operands before the first one that fails. -/
lemma walled (outline : List (Operand α)) (w : Workshop α) (hw : w.registry.Consistent)
    {result : Except (Fault α) (List (Patch α))} {w' : Workshop α}
    (hrun : outline.mapM (fun o => h.extrude (some .keeping) o) w = (result, w')) :
    (∃ new, result = .ok new ∧ h.Walls outline w.registry new w'.registry) ∨
      ∃ before o after fault new, outline = before ++ o :: after ∧ result = .error fault ∧
        h.Walls before w.registry new w'.registry ∧ (∀ shape, ¬ h.Spans o shape) ∧
        ((∃ d, fault = .diagnosed d) ∨ ∀ o shape, ¬ h.Spans o shape) := by
  induction outline generalizing w result w' with
  | nil =>
      cases hrun
      exact .inl ⟨[], rfl, walls_nil hw⟩
  | cons o rest ih =>
      have hstep := extruded h o hw
      rw [List.mapM_cons] at hrun
      rcases hfirst : h.extrude (some .keeping) o w with ⟨first, r₁, log₁⟩
      rw [hfirst] at hstep
      dsimp only at hstep
      cases hstep with
      | @made shape hshape =>
          rw [bind_of_ok (congrArg Prod.fst hfirst), hfirst, bind_pure_eq] at hrun
          rcases hrest : rest.mapM (fun o => h.extrude (some .keeping) o)
            ⟨w.registry.grow shape, log₁⟩ with ⟨second, w₂⟩
          rw [hrest] at hrun
          cases hrun
          rcases ih ⟨w.registry.grow shape, log₁⟩ (hw.of_change (hw.change_grow shape)) hrest with
            ⟨new, rfl, hwalls⟩ | ⟨before, o', after, fault, new, rfl, rfl, hwalls, hnone, hfault⟩
          · exact .inl ⟨_, rfl, hwalls.cons hshape⟩
          · exact .inr ⟨o :: before, o', after, fault, _, rfl, rfl, hwalls.cons hshape, hnone, hfault⟩
      | refused d hnone =>
          rw [bind_of_error (congrArg Prod.fst hfirst), hfirst] at hrun
          cases hrun
          exact .inr ⟨[], o, rest, _, [], rfl, rfl, walls_nil hw, hnone, .inl ⟨d, rfl⟩⟩
      | unusable fault hnone =>
          rw [bind_of_error (congrArg Prod.fst hfirst), hfirst] at hrun
          cases hrun
          exact .inr ⟨[], o, rest, fault, [], rfl, rfl, walls_nil hw, hnone o, .inr hnone⟩

omit [LawfulZero α] in
/-- A failure is undone, unless there was nothing to undo. -/
lemma undone {action : Building α (List (Patch α))} {w w' : Workshop α} {before : List (Operand α)}
    {fault : Fault α} {new : List (Patch α)} (hw : w.registry.Consistent)
    (hrun : action w = (.error fault, w')) (hwalls : h.Walls before w.registry new w'.registry)
    (hfault : (∃ d, fault = .diagnosed d) ∨ ∀ o shape, ¬ h.Spans o shape) : ∃ w'',
    Building.undoing action (Model.keeping.rollback w.registry.size) w = (.error fault, w'') ∧
      w.registry.Unchanged w''.registry := by
  by_cases hdiagnosed : ∃ d, fault = .diagnosed d
  · obtain ⟨d, rfl⟩ := hdiagnosed
    obtain ⟨r, hrollback, hsame⟩ := hw.rollback_of_begins hwalls.consistent
      ⟨new, hwalls.surfaces.symm⟩
    have hundo : Model.keeping.rollback w.registry.size w'.registry = (.ok (), r) := by
      show Registering.change (·.rollback w.registry.size) w'.registry = _
      simp only [Registering.change, hrollback]
    exact ⟨_, Building.undoing_of_diagnosed hrun hundo, hsame⟩
  · obtain rfl : new = [] := hwalls.eq_nil (hfault.resolve_left hdiagnosed)
    refine ⟨w', Building.undoing_of_fault hrun fun d hd => hdiagnosed ⟨d, hd⟩, ?_, ?_⟩
    · rw [hwalls.surfaces, List.append_nil]
    · rw [hwalls.index, List.map_nil, List.append_nil]

/-- **Extruding an outline is all or nothing**, whatever the heights are. -/
theorem extrudeAll_all_or_nothing {w : Workshop α} (hw : Registry.Reaches 0 .empty w.registry)
    (outline : List (Operand α)) (h : Heights α) :
    h.AllOrNothing outline w.registry (h.extrudeAll (some .keeping) outline w).1
      (h.extrudeAll (some .keeping) outline w).2.registry := by
  have hconsistent : w.registry.Consistent := Registry.consistent_empty.of_reaches hw
  rw [extrudeAll_eq]
  rcases hrun : outline.mapM (fun o => h.extrude (some .keeping) o) w with ⟨result, w'⟩
  rcases walled outline w hconsistent hrun with
    ⟨new, rfl, hwalls⟩ | ⟨before, o, after, fault, new, rfl, rfl, hwalls, hnone, hfault⟩
  · rw [Building.undoing_of_ok hrun]
    exact ⟨by rintro _ ⟨⟩; exact hwalls, nofun, nofun⟩
  · obtain ⟨w'', hundone, hsame⟩ := undone hconsistent hrun hwalls hfault
    rw [hundone]
    exact ⟨nofun, fun _ _ => hsame, fun _ _ => ⟨o, by simp, hnone⟩⟩

end Heights

end Arithmetic

/-! ## Outlines of doubles -/

/-- A registry with one wall three high. -/
def oneWall : Registry Float :=
  let wall : Plane Float := ⟨⟨⟨0, 4, 3⟩, ⟨4, 4, 3⟩, ⟨4, 4, 0⟩, ⟨0, 4, 0⟩⟩, ⟨0, 1, 0⟩, 12⟩
  ⟨[⟨0, .plane wall⟩], [(0, ⟨0, .plane wall⟩)], 1⟩

/-- The registry with one wall is reached by making that wall. -/
lemma reaches_oneWall : Registry.Reaches 0 .empty oneWall :=
  .single ⟨⟨.makePlane (.ok ⟨⟨⟨0, 4, 3⟩, ⟨4, 4, 3⟩, ⟨4, 4, 0⟩, ⟨0, 4, 0⟩⟩, ⟨0, 1, 0⟩, 12⟩), trivial,
    rfl⟩, Nat.zero_le _⟩

/-- A line, and one without length that nobody checked. -/
def flawedOutline : List (Operand Float) :=
  [.segment (.line ⟨⟨0, 0, 0⟩, ⟨4, 0, 0⟩⟩), .segment (.line ⟨⟨4, 0, 0⟩, ⟨4, 0, 0⟩⟩)]

/-- An integer beyond all doubles, and zero. -/
def boundlessHeights : Heights Float := ⟨.int (10 ^ 400), .int 0, .real extrusionTol⟩

namespace Heights

/-- The wall over the first line is taken back, and the one that stood before remains; between heights
that are no numbers nothing is made in the first place. -/
theorem extrudeAll_all_or_nothing_flawed :
    Registry.Reaches 0 .empty oneWall ∧
    (∀ h ∈ [ofNumbers (3 : Float) 0 extrusionTol, boundlessHeights],
      (h.extrudeAll (some .keeping) flawedOutline ⟨oneWall, .empty⟩).1.isOk = false ∧
      oneWall.Unchanged (h.extrudeAll (some .keeping) flawedOutline ⟨oneWall, .empty⟩).2.registry) := by
  refine ⟨reaches_oneWall, fun h hh => ?_⟩
  have hfails : (h.extrudeAll (some .keeping) flawedOutline ⟨oneWall, .empty⟩).1.isOk = false := by
    rcases List.mem_pair.mp hh with rfl | rfl <;> decide +kernel
  have hall := extrudeAll_all_or_nothing (w := ⟨oneWall, .empty⟩) reaches_oneWall flawedOutline h
  refine ⟨hfails, ?_⟩
  cases hresult : (h.extrudeAll (some .keeping) flawedOutline ⟨oneWall, .empty⟩).1 with
  | ok new =>
      rw [hresult] at hfails
      cases hfails
  | error fault => exact hall.nothing fault hresult

end Heights

end Contour
