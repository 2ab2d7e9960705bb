import Contour.Proofs.Walls

/-!
# The order of refusals

An extrusion can be refused for four reasons, at three levels: by its own checks, by a builder, and
by a model that answers that there is no patch.  The reasons are looked for in a fixed order, and
whatever is found first leaves the registry alone and one diagnostic in the log.

* `Operand.verdict` — the first reason that is found, or the shape; it looks at no state.
* `Workshop.settle`, `Operand.extrude_eq_settle` — the verdict is all that an extrusion depends on.
* `Refuses` — a failure with a diagnostic of one kind.
* `Operand.Accounted`, `Operand.extrude_accounted` — when each refusal occurs, and what is left.
-/

namespace Contour

variable {α : Type}

/-- A failure with a diagnostic of the given kind. -/
def Refuses {β : Type} (result : Except (Fault α) β) (code : Code) : Prop :=
  ∃ d : Refusal α, result = .error (.diagnosed d) ∧ d.code = code

/-- A workshop after an extrusion: a shape is registered under the next id, a complaint reported. -/
def Workshop.settle (w : Workshop α) :
    Except (Complaint α) (Shape α) → Except (Fault α) (Patch α) × Workshop α
  | .ok shape => (.ok ⟨w.registry.issued, shape⟩, ⟨w.registry.grow shape, w.log⟩)
  | .error c => (.error (.diagnosed (.ofComplaint c)), ⟨w.registry, w.log.report (.ofComplaint c)⟩)

section Settled

variable {β : Type} {c : Complaint α} {code : Code} {shape : Shape α} {w : Workshop α}

lemma refuses_ofComplaint :
    Refuses (.error (.diagnosed (.ofComplaint c)) : Except (Fault α) β) code ↔ c.code = code := by
  constructor
  · rintro ⟨d, hd, hcode⟩
    cases hd
    exact hcode
  · exact fun hcode => ⟨_, rfl, hcode⟩

lemma not_refuses_ok {b : β} : ¬ Refuses (.ok b : Except (Fault α) β) code := by
  rintro ⟨d, hd, -⟩
  cases hd

/-- A settled extrusion is refused as its verdict says. -/
lemma refuses_settle {verdict : Except (Complaint α) (Shape α)} :
    Refuses (w.settle verdict).1 code ↔ ∃ c, verdict = .error c ∧ c.code = code := by
  cases verdict with
  | ok shape => exact iff_of_false not_refuses_ok (by rintro ⟨c, hc, -⟩; cases hc)
  | error c => simp [Workshop.settle, refuses_ofComplaint]

end Settled

namespace Operand

variable [Add α] [Sub α] [Mul α] [Div α] [LT α] [LE α] [DecidableLT α] [DecidableLE α]
  [BEq α] [OfNat α 0] [OfNat α 1] [OfNat α 2] [OfScientific α] [Elementary α]

/-! ## The verdict -/

/-- What is wrong with an extrusion in the first place, or the shape that is to be made. -/
def verdict (model : Option (Model α)) (o : Operand α) (zTop zBottom tol : α) :
    Except (Complaint α) (Shape α) :=
  if Elementary.abs (zTop - zBottom) < tol then .error (.degenerateExtrusion zTop zBottom)
  else
    match o.require "segment" with
    | .error _ => .error (.emptySegment "segment")
    | .ok s =>
      if model.isNone then .error .nullModel
      else
        match s.swept zTop zBottom with
        | .error _ => .error (.surfaceConstruction s.surfaceName)
        | .ok shape => .ok shape

variable {o : Operand α} {model : Option (Model α)} {zTop zBottom tol : α} {w : Workshop α}

lemma verdict_of_lt (h : Elementary.abs (zTop - zBottom) < tol) :
    verdict model o zTop zBottom tol = .error (.degenerateExtrusion zTop zBottom) :=
  if_pos h

lemma verdict_other (h : ¬ Elementary.abs (zTop - zBottom) < tol) :
    verdict model .other zTop zBottom tol = .error (.emptySegment "segment") :=
  if_neg h

section Segments

variable {s : Segment α} (h : ¬ Elementary.abs (zTop - zBottom) < tol)

include h

lemma verdict_of_none : verdict none (.segment s) zTop zBottom tol = .error .nullModel :=
  if_neg h

lemma verdict_of_fault {m : Model α} {fault : Fault α}
    (hswept : s.swept zTop zBottom = .error fault) :
    verdict (some m) (.segment s) zTop zBottom tol = .error (.surfaceConstruction s.surfaceName) := by
  rw [verdict, if_neg h, require]
  simp only [Option.isNone_some, Bool.false_eq_true, if_false, hswept]

lemma verdict_of_swept {m : Model α} {shape : Shape α} (hswept : s.swept zTop zBottom = .ok shape) :
    verdict (some m) (.segment s) zTop zBottom tol = .ok shape := by
  rw [verdict, if_neg h, require]
  simp only [Option.isNone_some, Bool.false_eq_true, if_false, hswept]

end Segments

/-- The reason of a verdict.  The reasons exclude each other, in their order. -/
inductive Reason (model : Option (Model α)) (o : Operand α) (zTop zBottom tol : α) :
    Except (Complaint α) (Shape α) → Prop where
  | heights (h : Elementary.abs (zTop - zBottom) < tol) :
      Reason model o zTop zBottom tol (.error (.degenerateExtrusion zTop zBottom))
  | segment (h : ¬ Elementary.abs (zTop - zBottom) < tol) (ho : o.isSegment = false) :
      Reason model o zTop zBottom tol (.error (.emptySegment "segment"))
  | missing (h : ¬ Elementary.abs (zTop - zBottom) < tol) (ho : o.isSegment = true)
      (hmodel : model = none) :
      Reason model o zTop zBottom tol (.error .nullModel)
  | surface {fault : Fault α} (what : String) (h : ¬ Elementary.abs (zTop - zBottom) < tol)
      (ho : o.isSegment = true) (hmodel : model ≠ none)
      (hswept : o.swept zTop zBottom = .error fault) :
      Reason model o zTop zBottom tol (.error (.surfaceConstruction what))
  | made {shape : Shape α} (h : ¬ Elementary.abs (zTop - zBottom) < tol)
      (ho : o.isSegment = true) (hmodel : model ≠ none) (hswept : o.swept zTop zBottom = .ok shape) :
      Reason model o zTop zBottom tol (.ok shape)

lemma verdict_reason (model : Option (Model α)) (o : Operand α) (zTop zBottom tol : α) :
    Reason model o zTop zBottom tol (verdict model o zTop zBottom tol) := by
  by_cases hheights : Elementary.abs (zTop - zBottom) < tol
  · rw [verdict_of_lt hheights]
    exact .heights hheights
  cases o with
  | other =>
      rw [verdict_other hheights]
      exact .segment hheights rfl
  | segment s =>
      cases model with
      | none =>
          rw [verdict_of_none hheights]
          exact .missing hheights rfl rfl
      | some m =>
          cases hswept : s.swept zTop zBottom with
          | error fault =>
              rw [verdict_of_fault hheights hswept]
              exact .surface _ hheights rfl (Option.some_ne_none m) hswept
          | ok shape =>
              rw [verdict_of_swept hheights hswept]
              exact .made hheights rfl (Option.some_ne_none m) hswept

/-! ## What is refused, and what is left -/

/-- **What becomes of an extrusion.**  The reasons of refusals exclude each other in their order, and
what is not refused is made. -/
structure Accounted (model : Option (Model α)) (o : Operand α) (zTop zBottom tol : α)
    (w : Workshop α) (result : Except (Fault α) (Patch α)) (w' : Workshop α) : Prop where
  heights : Refuses result .degenerateExtrusion ↔ Elementary.abs (zTop - zBottom) < tol
  segment : Refuses result .emptySegment ↔
    ¬ Elementary.abs (zTop - zBottom) < tol ∧ o.isSegment = false
  missing : Refuses result .nullModel ↔
    ¬ Elementary.abs (zTop - zBottom) < tol ∧ o.isSegment = true ∧ model = none
  surface : Refuses result .surfaceConstructionFailed ↔
    ¬ Elementary.abs (zTop - zBottom) < tol ∧ o.isSegment = true ∧ model ≠ none ∧
      ∃ fault, o.swept zTop zBottom = .error fault
  returned : (∃ p, result = .ok p) ↔
    ¬ Elementary.abs (zTop - zBottom) < tol ∧ o.isSegment = true ∧ model ≠ none ∧
      ∃ shape, o.swept zTop zBottom = .ok shape
  /-- Nothing fails in another way, and a refusal is of the class of its code and reported once. -/
  refused : ∀ fault, result = .error fault → ∃ d, fault = .diagnosed d ∧
    d.errorClass = d.code.errorClass ∧ w'.registry = w.registry ∧
    w'.log.entries = w.log.entries ++ [d.diagnostic]
  /-- A patch that is returned is the last of the registry, and nothing is reported. -/
  made : ∀ p, result = .ok p → o.swept zTop zBottom = .ok p.shape ∧
    w'.registry.surfaces = w.registry.surfaces ++ [p] ∧
    w'.registry.index = w.registry.index ++ [(p.id, p)] ∧ w'.log = w.log
  /-- What was reported before does not matter, nor whether anybody reads it. -/
  blind : ∀ log, (extrude model o zTop zBottom tol ⟨w.registry, log⟩).1 = result ∧
    (extrude model o zTop zBottom tol ⟨w.registry, log⟩).2.registry = w'.registry

variable [LawfulZero α]

/-- **An extrusion depends on nothing but its verdict**, in a registry whose next id is free and
where there is no model at all. -/
lemma extrude_eq_settle (hmodel : model = none ∨ model = some .keeping) (o : Operand α)
    (hfresh : w.registry.get? w.registry.issued = none) :
    extrude model o zTop zBottom tol w = w.settle (verdict model o zTop zBottom tol) := by
  by_cases hheights : Elementary.abs (zTop - zBottom) < tol
  · rw [verdict_of_lt hheights, extrude_of_lt hheights]
    rfl
  · rw [extrude_of_not_lt hheights]
    cases o with
    | other =>
        rw [verdict_other hheights]
        rfl
    | segment s =>
        rcases hmodel with rfl | rfl
        · rw [verdict_of_none hheights]
          rfl
        · cases hswept : s.swept zTop zBottom with
          | error fault =>
              rw [Heights.place_of_none (by rw [Heights.ask_ofNumbers, s.extrude_of_fault hswept]),
                verdict_of_fault hheights hswept]
              rfl
          | ok shape =>
              rw [Heights.place_of_made
                (by rw [Heights.ask_ofNumbers, s.extrude_of_swept hfresh hswept]),
                verdict_of_swept hheights hswept]
              rfl

/-- **Refusals of an extrusion in their order.**  A model whose registry was reached by any run of
calls, or no model at all, extrudes an operand or refuses it, for the first reason that applies. -/
theorem extrude_accounted (hmodel : model = none ∨ model = some .keeping)
    (hw : Registry.Reaches 0 .empty w.registry) (o : Operand α) (zTop zBottom tol : α) :
    Accounted model o zTop zBottom tol w (extrude model o zTop zBottom tol w).1
      (extrude model o zTop zBottom tol w).2 := by
  have hfresh : w.registry.get? w.registry.issued = none :=
    (Registry.consistent_empty.of_reaches hw).get?_of_issued_le le_rfl
  have hreason := verdict_reason model o zTop zBottom tol
  have hblind : ∀ log, (extrude model o zTop zBottom tol ⟨w.registry, log⟩).1
        = (w.settle (verdict model o zTop zBottom tol)).1 ∧
      (extrude model o zTop zBottom tol ⟨w.registry, log⟩).2.registry
        = (w.settle (verdict model o zTop zBottom tol)).2.registry := by
    intro log
    rw [extrude_eq_settle (w := ⟨w.registry, log⟩) hmodel o hfresh]
    cases verdict model o zTop zBottom tol <;> exact ⟨rfl, rfl⟩
  rw [extrude_eq_settle hmodel o hfresh]
  generalize verdict model o zTop zBottom tol = v at hreason hblind ⊢
  constructor
  case heights => cases hreason <;> simp [refuses_settle, Complaint.code, *]
  case segment => cases hreason <;> simp [refuses_settle, Complaint.code, *]
  case missing => cases hreason <;> simp [refuses_settle, Complaint.code, *]
  case surface => cases hreason <;> simp [refuses_settle, Complaint.code, *]
  case returned => cases hreason <;> simp [Workshop.settle, *]
  case refused =>
    rintro fault hfault
    cases hreason <;> cases hfault <;> exact ⟨_, rfl, rfl, rfl, rfl⟩
  case made =>
    rintro p hp
    cases hreason <;> cases hp
    next hswept => exact ⟨hswept, rfl, rfl, rfl⟩
  case blind => exact hblind

/-! ## A wall without area -/

/-- A line that is barely long enough. -/
def shortLine : Line Float := ⟨⟨0, 0, 0⟩, ⟨2e-8, 0, 0⟩⟩

/-- Over a line that construction accepts and between heights that are apart, the corners of a wall
may still span no area; the wall that stood before is left, and the refusal is reported once. -/
theorem extrude_accounted_shortLine :
    Line.ofEnds ⟨0, 0, 0⟩ ⟨2e-8, 0, 0⟩ coincidentTol = .ok shortLine ∧
      Registry.Reaches 0 .empty oneWall ∧
      Accounted (some .keeping) (.segment (.line shortLine)) 2e-6 0 extrusionTol ⟨oneWall, .empty⟩
        (extrude (some .keeping) (.segment (.line shortLine)) 2e-6 0 extrusionTol ⟨oneWall, .empty⟩).1
        (extrude (some .keeping) (.segment (.line shortLine)) 2e-6 0 extrusionTol
          ⟨oneWall, .empty⟩).2 ∧
      Refuses (extrude (some .keeping) (.segment (.line shortLine)) 2e-6 0 extrusionTol
        ⟨oneWall, .empty⟩).1 .surfaceConstructionFailed := by
  have haccounted := extrude_accounted (w := ⟨oneWall, .empty⟩) (.inr rfl) reaches_oneWall
    (.segment (.line shortLine)) (2e-6) 0 extrusionTol
  refine ⟨by rfl, reaches_oneWall, haccounted, ?_⟩
  have hheights : ¬ Elementary.abs ((2e-6 : Float) - 0) < extrusionTol := by decide +kernel
  have hfails : (swept (.segment (.line shortLine)) 2e-6 0).isOk = false := by decide +kernel
  cases hswept : swept (.segment (.line shortLine)) (2e-6 : Float) 0 with
  | ok shape =>
      rw [hswept] at hfails
      cases hfails
  | error fault => exact haccounted.surface.mpr ⟨hheights, rfl, nofun, fault, hswept⟩

end Operand

end Contour
