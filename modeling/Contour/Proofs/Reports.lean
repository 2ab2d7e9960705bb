import Contour.Double.Kernel
import Contour.Proofs.Heights
import Contour.Segment.Read

/-!
# One report for each refusal

A log is handed down by hand: from a call to the calls that it makes, and to every check in them.
A check that forgets it, or two levels that both report, would be seen in the log only.  This file
says that there are none, for calls in any order that share one log.

* `Building.Reports` — a computation that reports its own refusal and nothing else; `Reports.bind`,
  `mapM` and `undoing` make larger ones.
* `Model.Undoes` — a model whose `rollback` goes back to a mark that it gave; `undoes_keeping` and the
  others say that all models of the kernel do.
* `Heights.reports_extrude`, `Heights.reports_extrudeAll` — extrusion, in any model.
* `Call`, `Session` — calls that share a log, and the record of what they answered.
* `Call.Undoes` — what a call asks of its model: that it can undo what it made.
* `Session.InOrder`, `Session.run_inOrder` — the log holds what was reported or refused since it was
  last cleared, and every error is of the class of its code.
-/

namespace Contour

variable {α β γ : Type}

/-- A log after a computation: the diagnostic of a refusal is its last entry. -/
def Log.after (log : Log α) : Except (Fault α) β → Log α
  | .error (.diagnosed r) => log.report r.diagnostic
  | _ => log

lemma logged_eq (x : Except (Fault α) β) (log : Log α) : logged x log = (x, log.after x) := by
  cases x with
  | ok b => rfl
  | error fault => cases fault <;> rfl

/-- What is never refused leaves nothing to report. -/
lemma RefusesOnly.after_eq {x : Except (Fault α) β} (h : RefusesOnly [] x) (log : Log α) :
    log.after x = log := by
  cases x with
  | ok b => rfl
  | error fault =>
      cases fault with
      | diagnosed r => exact absurd rfl (h.not_diagnosed r)
      | _ => rfl

/-! ## Computations that report their refusals -/

namespace Building

/-- A run that reports the diagnostic with which it fails, once, and nothing else; if it is refused,
then with a complaint of one of the given kinds. -/
structure ReportsAt (codes : List Code) (action : Building α β) (w : Workshop α) : Prop where
  log_eq : (action w).2.log = w.log.after (action w).1
  refuses : RefusesOnly codes (action w).1

/-- A computation that reports its refusals wherever it is run. -/
def Reports (codes : List Code) (action : Building α β) : Prop := ∀ w, ReportsAt codes action w

variable {codes : List Code}

lemma onLog_logged (x : Except (Fault α) β) (w : Workshop α) :
    onLog (logged x) w = (x, ⟨w.registry, w.log.after x⟩) := by
  rw [onLog, logged_eq]

namespace ReportsAt

/-- Of two steps, the first one reports if it fails, and otherwise the second one does. -/
lemma bind {first : Building α β} {next : β → Building α γ} {w : Workshop α}
    (hfirst : ReportsAt codes first w)
    (hnext : ∀ b, (first w).1 = .ok b → ReportsAt codes (next b) (first w).2) :
    ReportsAt codes (first >>= next) w := by
  obtain ⟨hlog, hrefuses⟩ := hfirst
  cases hresult : (first w).1 with
  | error fault =>
      rw [hresult] at hlog hrefuses
      constructor
      · rw [bind_of_error hresult, hlog]
        cases fault <;> rfl
      · rw [bind_of_error hresult]
        rintro d ⟨⟩
        exact hrefuses d rfl
  | ok b =>
      rw [hresult] at hlog
      obtain ⟨hlog', hrefuses'⟩ := hnext b hresult
      constructor
      · rw [bind_of_ok hresult, hlog', hlog]
        rfl
      · rw [bind_of_ok hresult]
        exact hrefuses'

/-- What is undone was reported, and stays so. -/
lemma undoing {action : Building α β} {undo : Registering α Unit} {w : Workshop α}
    (h : ReportsAt codes action w) (hundo : (undo (action w).2.registry).1 = .ok ()) :
    ReportsAt codes (Building.undoing action undo) w := by
  have hrun : (Building.undoing action undo w).1 = (action w).1 ∧
      (Building.undoing action undo w).2.log = (action w).2.log := by
    unfold Building.undoing
    rcases hresult : action w with ⟨fault | b, w'⟩
    · rw [hresult] at hundo
      cases fault with
      | diagnosed d =>
          rcases hback : undo w'.registry with ⟨_, r⟩
          rw [hback] at hundo
          cases hundo
          simp only [Building.onRegistry, hback, and_self]
      | _ => exact ⟨rfl, rfl⟩
    · exact ⟨rfl, rfl⟩
  constructor
  · rw [hrun.1, hrun.2, h.log_eq]
  · rw [hrun.1]
    exact h.refuses

end ReportsAt

namespace Reports

lemma pure (b : β) : Reports codes (Pure.pure b : Building α β) := fun _ => ⟨rfl, .ok b⟩

lemma logged {x : Except (Fault α) β} (h : RefusesOnly codes x) :
    Reports codes (onLog (Contour.logged x)) := by
  intro w
  constructor
  · rw [onLog_logged]
  · rw [onLog_logged]
    exact h

lemma refuse {c : Complaint α} (h : c.code ∈ codes) :
    Reports codes (Building.refuse c : Building α β) :=
  logged (.refuse h)

/-- What is never refused need not be reported. -/
lemma unlogged {x : Except (Fault α) β} (h : RefusesOnly [] x) :
    Reports codes (onLog (Contour.unlogged x)) := fun w =>
  ⟨(h.after_eq w.log).symm, h.mono (List.nil_subset codes)⟩

/-- What happens to a registry is nothing to report, if it is never refused. -/
lemma onRegistry {action : Registering α β} (h : ∀ r, RefusesOnly [] (action r).1) :
    Reports codes (Building.onRegistry action) := fun w =>
  ⟨((h w.registry).after_eq w.log).symm, (h w.registry).mono (List.nil_subset codes)⟩

lemma bind {first : Building α β} {next : β → Building α γ} (hfirst : Reports codes first)
    (hnext : ∀ b, Reports codes (next b)) : Reports codes (first >>= next) :=
  fun w => (hfirst w).bind fun b _ => hnext b _

lemma mapM {f : β → Building α γ} (h : ∀ b, Reports codes (f b)) (items : List β) :
    Reports codes (items.mapM f) := by
  induction items with
  | nil => exact pure _
  | cons b rest ih =>
      rw [List.mapM_cons]
      exact (h b).bind fun _ => ih.bind fun _ => pure _

end Reports

/-- A computation that changes the registry by steps of one kind only. -/
def Moves (step : Registry α → Registry α → Prop) (action : Building α β) : Prop :=
  ∀ w, Relation.ReflTransGen step w.registry (action w).2.registry

namespace Moves

variable {step : Registry α → Registry α → Prop}

lemma pure (b : β) : Moves step (Pure.pure b : Building α β) := fun _ => .refl

lemma onLog (action : Reporting α β) : Moves step (Building.onLog action) := fun _ => .refl

lemma onRegistry {action : Registering α β} (h : ∀ r, Relation.ReflTransGen step r (action r).2) :
    Moves step (Building.onRegistry action) := fun w => h w.registry

lemma bind {first : Building α β} {next : β → Building α γ} (hfirst : Moves step first)
    (hnext : ∀ b, Moves step (next b)) : Moves step (first >>= next) := by
  intro w
  cases hresult : (first w).1 with
  | error fault =>
      rw [bind_of_error hresult]
      exact hfirst w
  | ok b =>
      rw [bind_of_ok hresult]
      exact (hfirst w).trans (hnext b _)

lemma mapM {f : β → Building α γ} (h : ∀ b, Moves step (f b)) (items : List β) :
    Moves step (items.mapM f) := by
  induction items with
  | nil => exact pure _
  | cons b rest ih =>
      rw [List.mapM_cons]
      exact (h b).bind fun _ => ih.bind fun _ => pure _

end Moves

end Building

/-! ## Models that can undo -/

namespace Registering

/-- Whatever a model does, a builder does not let its refusals through. -/
lemma refusesOnly_orNone {codes : List Code} (action : Registering α (Option β)) (r : Registry α) :
    RefusesOnly codes (orNone action r).1 := by
  unfold orNone
  rcases action r with ⟨fault | answer, r'⟩
  · dsimp only
    split_ifs with hbad
    · exact .ok _
    · refine .error ?_
      rintro d rfl
      exact hbad rfl
  · exact .ok _

/-- A builder changes nothing but by way of its model. -/
lemma orNone_state (action : Registering α (Option β)) (r : Registry α) :
    (orNone action r).2 = (action r).2 := by
  unfold orNone
  rcases action r with ⟨fault | answer, r'⟩
  · dsimp only
    split_ifs <;> rfl
  · rfl

lemma size_le_register (description : Except (Fault α) (Shape α)) (r : Registry α) :
    r.size ≤ (register description r).2.size := by
  cases description with
  | error fault => rw [register_error]
  | ok shape =>
      have hissue : (issue shape r).1 = .ok ⟨r.issued, shape⟩ := rfl
      have hadd : r.size ≤ (add ⟨r.issued, shape⟩ (r.issue shape).2).2.size := by
        cases htaken : (r.issue shape).2.get? r.issued with
        | none =>
            rw [add_of_fresh htaken]
            simp [Registry.push, Registry.size, Registry.issue]
        | some q =>
            rw [add_of_taken htaken]
            exact le_rfl
      show r.size ≤ ((issue shape >>= fun p => add p >>= fun _ => pure (some p)) r).2.size
      rw [bind_of_ok hissue, bind_pure_eq]
      exact hadd

end Registering

namespace Model

/-- What a registry may become when a model is asked for a patch. -/
inductive Makes (m : Model α) (r : Registry α) : Registry α → Prop
  | cylinder (description : Except (Fault α) (Cylinder α)) :
      Makes m r (m.makeCylinder description r).2
  | plane (description : Except (Fault α) (Plane α)) : Makes m r (m.makePlane description r).2

/-- A model that goes back to every mark that it gave, however many patches it made since; or one
that gives no marks. -/
structure Undoes (m : Model α) : Prop where
  checkpoint_refuses : ∀ r, RefusesOnly [] (m.checkpoint r).1
  rollback_ok : ∀ r r' mark, (m.checkpoint r).1 = .ok mark →
    Relation.ReflTransGen m.Makes (m.checkpoint r).2 r' → (m.rollback mark r').1 = .ok ()

/-- Where no patch is lost, a mark does not come to lie beyond the registry. -/
lemma rollback_keeping_ok {m : Model α} (hstep : ∀ r r', m.Makes r r' → r.size ≤ r'.size)
    {r r' : Registry α} (hmakes : Relation.ReflTransGen m.Makes r r') :
    ((keeping : Model α).rollback r.size r').1 = .ok () := by
  have h : r.size ≤ r'.size := by
    induction hmakes with
    | refl => exact le_rfl
    | tail _ hlast ih => exact ih.trans (hstep _ _ hlast)
  have hmark : ¬ ((r.size : ℤ) < 0 || decide ((r'.size : ℤ) < r.size)) = true := by simpa using h
  show (Registering.change (·.rollback r.size) r').1 = _
  simp only [Registering.change, Registry.rollback, if_neg hmark]

lemma undoes_keeping : (keeping : Model α).Undoes where
  checkpoint_refuses _ := .ok _
  rollback_ok := by
    rintro r r' _ ⟨⟩ hmakes
    refine rollback_keeping_ok ?_ hmakes
    rintro r r' (_ | _) <;> exact Registering.size_le_register _ r

lemma undoes_withoutCylinders : (withoutCylinders : Model α).Undoes where
  checkpoint_refuses _ := .ok _
  rollback_ok := by
    rintro r r' _ ⟨⟩ hmakes
    refine rollback_keeping_ok ?_ hmakes
    rintro r r' (_ | _)
    · exact le_rfl
    · exact Registering.size_le_register _ r

lemma undoes_bare (name : String) : (bare name : Model α).Undoes where
  checkpoint_refuses _ := .error nofun
  rollback_ok := by rintro _ _ _ ⟨⟩

lemma undoes_absent : (absent : Model α).Undoes where
  checkpoint_refuses _ := .error nofun
  rollback_ok := by rintro _ _ _ ⟨⟩

end Model

/-! ## Reading and extruding -/

/-- A mismatch of radii is refused as it was found, or its message cannot be written. -/
lemma Segment.refusesOnly_curveOf [Add α] [Sub α] [Mul α] [Div α] [LT α] [LE α] [DecidableLT α]
    [DecidableLE α] [BEq α] [OfNat α 0] [OfNat α 1] [OfNat α 2] [Elementary α] (c s e : Point α)
    (clockwise : Bool) (tol : α) (radiusTol : Datum α) :
    RefusesOnly [.nonPlanarInput, .degenerateGeometry, .radiusMismatch]
      (Segment.curveOf c s e clockwise tol radiusTol) := by
  have hdrawn := Curve.refusesOnly_ofEnds c s e clockwise tol (radiusTol.comparand.toOption.getD 0)
  unfold Segment.curveOf
  generalize Curve.ofEnds c s e clockwise tol (radiusTol.comparand.toOption.getD 0) = drawn at hdrawn ⊢
  have hshown : RefusesOnly [.nonPlanarInput, .degenerateGeometry, .radiusMismatch]
      (Segment.showing radiusTol drawn) := by
    unfold Segment.showing
    split
    · exact (Draft.refusesOnly_refuse rfl).mono (by simp [Draft.code])
    · exact hdrawn
  dsimp only
  split_ifs
  · exact radiusTol.refusesOnly_comparand.bind fun _ => hshown.bind fun _ => .ok _
  · exact hshown.bind fun _ => .ok _

section Arithmetic

variable [Add α] [Sub α] [Mul α] [Div α] [LT α] [LE α] [DecidableLT α] [DecidableLE α]
  [BEq α] [OfNat α 0] [OfNat α 1] [OfNat α 2] [OfScientific α] [Elementary α]

namespace Segment

variable {m : Model α} {zTop zBottom : α}

/-- A segment asks a model for at most one patch, by way of a builder. -/
lemma extrude_cases (s : Segment α) (m : Model α) (zTop zBottom : α) :
    s.extrude m zTop zBottom = pure none ∨
      (∃ description, s.extrude m zTop zBottom = Registering.orNone (m.makeCylinder description)) ∨
      ∃ description, s.extrude m zTop zBottom = Registering.orNone (m.makePlane description) := by
  cases s with
  | line l => exact .inr (.inr ⟨_, rfl⟩)
  | curve c =>
      unfold extrude
      dsimp only
      split
      · exact .inr (.inl ⟨_, rfl⟩)
      · exact .inl rfl

end Segment

namespace Heights

/-- The kinds of refusals of an extrusion. -/
def codes : List Code :=
  [.degenerateExtrusion, .emptySegment, .nullModel, .surfaceConstructionFailed]

/-- Asking for a patch fails at once, or asks a model for at most one. -/
lemma ask_cases (h : Heights α) (s : Segment α) (m : Model α) :
    (∃ fault, h.numbers = .error fault ∧ h.ask s m = throw fault) ∨ h.ask s m = pure none ∨
      (∃ description, h.ask s m = Registering.orNone (m.makeCylinder description)) ∨
      ∃ description, h.ask s m = Registering.orNone (m.makePlane description) := by
  unfold ask
  split
  · exact .inr (s.extrude_cases m _ _)
  · next fault hnumbers =>
    cases s with
    | line l => exact .inl ⟨fault, hnumbers, rfl⟩
    | curve c =>
        dsimp only
        split
        · exact .inr (.inr (.inl ⟨_, rfl⟩))
        · exact .inr (.inl rfl)

lemma refusesOnly_ask {codes : List Code} (h : Heights α) (s : Segment α) (m : Model α)
    (r : Registry α) : RefusesOnly codes (h.ask s m r).1 := by
  rcases h.ask_cases s m with ⟨fault, hnumbers, hask⟩ | hask | ⟨_, hask⟩ | ⟨_, hask⟩ <;> rw [hask]
  · refine .error ?_
    rintro d rfl
    cases fault_of_numbers hnumbers
  · exact .ok _
  · exact Registering.refusesOnly_orNone _ r
  · exact Registering.refusesOnly_orNone _ r

lemma makes_ask (h : Heights α) (s : Segment α) (m : Model α) (r : Registry α) :
    Relation.ReflTransGen m.Makes r (h.ask s m r).2 := by
  rcases h.ask_cases s m with ⟨fault, -, hask⟩ | hask | ⟨description, hask⟩ | ⟨description, hask⟩ <;>
    rw [hask]
  · exact .refl
  · exact .refl
  · rw [Registering.orNone_state]
    exact .single (.cylinder description)
  · rw [Registering.orNone_state]
    exact .single (.plane description)

/-- **An extrusion reports its refusal**, in whatever model and between whatever heights. -/
lemma reports_extrude (h : Heights α) (model : Option (Model α)) (o : Operand α) :
    Building.Reports codes (h.extrude model o) := by
  have hplace : Building.Reports codes (h.place model o) := by
    refine .bind (.logged ((o.refusesOnly_require _).mono (by simp [codes]))) fun s => ?_
    cases model with
    | none => exact .refuse (by simp [codes, Complaint.code])
    | some m =>
        refine .bind (.onRegistry (h.refusesOnly_ask s m)) fun answer => ?_
        cases answer with
        | none => exact .refuse (by simp [codes, Complaint.code])
        | some p => exact .pure p
  have hclose : Building.Reports codes (Building.onLog (unlogged h.tooClose)) :=
    .unlogged h.refusesOnly_tooClose
  refine hclose.bind fun close => ?_
  cases close with
  | false => exact hplace
  | true => exact .logged ((Draft.refusesOnly_refuse rfl).mono (by simp [codes, Draft.code]))

/-- An extrusion changes the registry only by way of its model. -/
lemma moves_extrude (h : Heights α) (m : Model α) (o : Operand α) :
    Building.Moves m.Makes (h.extrude (some m) o) := by
  refine .bind (.onLog (unlogged h.tooClose)) fun close => ?_
  cases close with
  | true => exact fun _ => .refl
  | false =>
      refine .bind (.onLog (logged (o.require "segment"))) fun s => ?_
      refine .bind (.onRegistry (h.makes_ask s m)) fun answer => ?_
      cases answer with
      | none => exact .onLog _
      | some p => exact .pure p

/-- **An outline that is extruded reports one refusal at most**: that of the operand at which it
stops.  Going back to the mark before does not fail. -/
lemma reports_extrudeAll (h : Heights α) {model : Option (Model α)}
    (hmodel : ∀ m ∈ model, m.Undoes) (outline : List (Operand α)) :
    Building.Reports codes (h.extrudeAll model outline) := by
  cases model with
  | none => exact .refuse (by simp [codes, Complaint.code])
  | some m =>
      obtain ⟨hquiet, hrollback⟩ := hmodel m rfl
      intro w
      refine .bind (Building.Reports.onRegistry hquiet w) fun mark hmark => ?_
      have hmoves := Building.Moves.mapM (fun o => h.moves_extrude m o) outline
      have hreports := Building.Reports.mapM (fun o => h.reports_extrude (some m) o) outline
      refine (hreports _).undoing (hrollback w.registry _ mark hmark ?_)
      exact hmoves (Building.onRegistry m.checkpoint w).2

end Heights

end Arithmetic

/-! ## Calls that share a log -/

/-- What a call answers that does not fail, as far as diagnostics go: a diagnostic that was reported on
demand, an error that was made on demand, or something else. -/
inductive Outcome (α : Type) where
  | value
  | reported (d : Diagnostic α)
  | returned (r : Refusal α)

/-- What a call answers. -/
abbrev Reply (α : Type) := Except (Fault α) (Outcome α)

namespace Reply

/-- The error of a reply that carries a diagnostic, whether it is raised or handed back. -/
def refusal? : Reply α → Option (Refusal α)
  | .error (.diagnosed r) | .ok (.returned r) => some r
  | _ => none

/-- The diagnostics of a reply: that of its error, or the one that was reported. -/
def carried : Reply α → List (Diagnostic α)
  | .error (.diagnosed r) | .ok (.returned r) => [r.diagnostic]
  | .ok (.reported d) => [d]
  | _ => []

end Reply

/-- The calls that may share a log. -/
inductive Call (α : Type) where
  | line (start stop : Datum α) (tol : α)
  | curve (center start stop : Datum α) (clockwise : Bool) (tol : α) (radiusTol : Datum α)
  | circle (center radius : Datum α) (tol : α)
  | box (o : Operand α) (tol : α)
  | intersect (a b : Operand α) (tol radiusTol : α)
  | intersectAll (outline : List (Operand α)) (tol radiusTol : α)
  | extrude (model : Option (Model α)) (o : Operand α) (h : Heights α)
  | extrudeAll (model : Option (Model α)) (outline : List (Operand α)) (h : Heights α)
  /-- An error is made and handed back, not raised. -/
  | make (draft : Draft α)
  | report (d : Diagnostic α)
  | clear
  /-- The calls that follow find this registry: that of another model, or one that changed. -/
  | turnTo (r : Registry α)

namespace Call

def isClear : Call α → Bool
  | clear => true
  | _ => false

lemma eq_clear {call : Call α} (h : call.isClear = true) : call = clear := by
  cases call <;> cases h
  rfl

/-- The kinds of refusals of a call. -/
def codes : Call α → List Code
  | line _ _ _ | circle _ _ _ => [.nonPlanarInput, .degenerateGeometry]
  | curve _ _ _ _ _ _ => [.nonPlanarInput, .degenerateGeometry, .radiusMismatch]
  | box _ _ | intersect _ _ _ _ | intersectAll _ _ _ => [.emptySegment]
  | extrude _ _ _ | extrudeAll _ _ _ => Heights.codes
  | make _ | report _ | clear | turnTo _ => []

/-- The model of an outline that is extruded can undo what it made. -/
def Undoes : Call α → Prop
  | extrudeAll model _ _ => ∀ m ∈ model, m.Undoes
  | _ => True

variable [Add α] [Sub α] [Mul α] [Div α] [Neg α] [LT α] [LE α] [DecidableLT α] [DecidableLE α]
  [BEq α] [OfNat α 0] [OfNat α 1] [OfNat α 2] [OfScientific α] [Elementary α] [Textual α]
  [Widening α]

def run (call : Call α) : Building α (Outcome α) :=
  match call with
  | line start stop tol => do
    let _ ← Building.onLog (Segment.readLine start stop tol)
    return .value
  | curve center start stop clockwise tol radiusTol => do
    let _ ← Building.onLog (Segment.readCurve center start stop clockwise tol radiusTol)
    return .value
  | circle center radius tol => do
    let _ ← Building.onLog (Segment.readCircle center radius tol)
    return .value
  | box o tol => do
    let _ ← Building.onLog (o.box tol)
    return .value
  | intersect a b tol radiusTol => do
    let _ ← Building.onLog (a.intersect b tol radiusTol)
    return .value
  | intersectAll outline tol radiusTol => do
    let _ ← Building.onLog (Operand.intersectAll outline tol radiusTol)
    return .value
  | extrude model o h => do
    let _ ← h.extrude model o
    return .value
  | extrudeAll model outline h => do
    let _ ← h.extrudeAll model outline
    return .value
  | make draft => do return .returned (← Building.onLog draft.file)
  | report d => fun w => (.ok (.reported d), { w with log := w.log.report d })
  | clear => fun w => (.ok .value, { w with log := w.log.clear })
  | turnTo r => fun w => (.ok .value, { w with registry := r })

variable {call : Call α} {w : Workshop α}

/-- **What one call does to the log.**  It appends the diagnostic that its error carries, if there is
an error, to what was there. -/
structure Filed (call : Call α) (w : Workshop α) : Prop where
  entries_eq : (call.run w).2.log.entries
    = (if call.isClear then [] else w.log.entries) ++ Reply.carried (call.run w).1
  raised : RefusesOnly call.codes (call.run w).1
  /-- What is handed back is the error that was asked for, if its message can be written. -/
  returned : ∀ r, (call.run w).1 = .ok (.returned r) →
    ∃ draft, call = make draft ∧ draft.diagnostic = .ok r.diagnostic
  reported : ∀ d, (call.run w).1 = .ok (.reported d) → call = report d
  classed : ∀ r ∈ Reply.refusal? (call.run w).1, r.errorClass = r.code.errorClass

/-- A call whose value does not matter. -/
lemma filed_of_reports {action : Building α β} (hrun : call.run = action >>= fun _ => pure .value)
    (hclear : call.isClear = false) (h : Building.Reports call.codes action) : call.Filed w := by
  have hreports : Building.Reports call.codes call.run := by
    rw [hrun]
    exact h.bind fun _ => .pure Outcome.value
  have hraised := (hreports w).refuses
  have hlog := (hreports w).log_eq
  have hvalue : ∀ answer, (call.run w).1 = .ok answer → answer = .value := by
    intro answer hanswer
    rw [hrun, bind_pure_eq] at hanswer
    cases hresult : (action w).1 <;> rw [hresult] at hanswer <;> cases hanswer
    rfl
  refine ⟨?_, hraised, fun r hr => ?_, fun d hd => ?_, fun r hr => ?_⟩
  · rw [hlog, hclear]
    cases hresult : (call.run w).1 with
    | ok answer =>
        rw [hvalue answer hresult]
        simp [Log.after, Reply.carried]
    | error fault => cases fault <;> simp [Log.after, Log.report, Reply.carried]
  · cases hvalue _ hr
  · cases hvalue _ hd
  · cases hresult : (call.run w).1 with
    | ok answer =>
        rw [hresult, hvalue answer hresult] at hr
        cases hr
    | error fault =>
        rw [hresult] at hr hraised
        cases fault with
        | diagnosed r' =>
            cases hr
            exact hraised.errorClass
        | _ => cases hr

/-- An error that is made is reported once its message is written, and handed back. -/
lemma filed_make (draft : Draft α) (w : Workshop α) : (make draft).Filed w := by
  cases hd : draft.diagnostic with
  | error fault =>
      have hquiet : ∀ r, fault ≠ .diagnosed r := by
        rintro r rfl
        exact draft.refusesOnly_diagnostic.not_diagnosed r hd
      have hrun : (make draft).run w = (.error fault, w) := by
        simp only [run, Draft.file, hd]
        rfl
      refine ⟨?_, ?_, ?_, ?_, ?_⟩ <;> rw [hrun]
      · cases fault <;> simp [isClear, Reply.carried] at hquiet ⊢
      · exact .error hquiet
      · nofun
      · nofun
      · cases fault <;> simp [Reply.refusal?] at hquiet ⊢
  | ok d =>
      have hrun : (make draft).run w
          = (.ok (.returned d.refusal), ⟨w.registry, w.log.report d⟩) := by
        simp only [run, Draft.file, hd]
        rfl
      refine ⟨?_, ?_, ?_, ?_, ?_⟩ <;> rw [hrun]
      · rfl
      · exact .ok _
      · rintro r ⟨⟩
        exact ⟨draft, rfl, hd⟩
      · nofun
      · rintro r ⟨⟩
        rfl

/-- **Every call files its error.** -/
lemma filed (hundoes : call.Undoes) (w : Workshop α) : call.Filed w := by
  cases call with
  | line start stop tol =>
      refine filed_of_reports rfl rfl (.logged ?_)
      exact start.refusesOnly_toPoint.bind fun _ => stop.refusesOnly_toPoint.bind fun _ =>
        (Line.refusesOnly_ofEnds _ _ tol).bind fun _ => .ok _
  | curve center start stop clockwise tol radiusTol =>
      refine filed_of_reports rfl rfl (.logged ?_)
      exact center.refusesOnly_toPoint.bind fun _ => start.refusesOnly_toPoint.bind fun _ =>
        stop.refusesOnly_toPoint.bind fun _ => Segment.refusesOnly_curveOf _ _ _ clockwise tol radiusTol
  | circle center radius tol =>
      refine filed_of_reports rfl rfl (.logged ?_)
      refine center.refusesOnly_toPoint.bind fun c => ?_
      split_ifs
      · exact .refuse (by simp [codes, Complaint.code])
      · exact radius.refusesOnly_comparand.bind fun _ =>
          (Circle.refusesOnly_ofRadius _ _ tol).bind fun _ =>
            radius.refusesOnly_operand.bind fun _ => .ok _
  | box o tol =>
      exact filed_of_reports rfl rfl (.logged ((o.refusesOnly_require _).bind fun _ => .ok _))
  | intersect a b tol radiusTol =>
      exact filed_of_reports rfl rfl (.logged (a.refusesOnly_intersection b tol radiusTol))
  | intersectAll outline tol radiusTol =>
      refine filed_of_reports rfl rfl (.logged ?_)
      exact (RefusesOnly.mapM (fun _ => (Operand.refusesOnly_intersection _ _ tol radiusTol).bind
        fun _ => .ok _) _).bind fun _ => .ok _
  | extrude model o h => exact filed_of_reports rfl rfl (h.reports_extrude model o)
  | extrudeAll model outline h => exact filed_of_reports rfl rfl (h.reports_extrudeAll hundoes outline)
  | make draft => exact filed_make draft w
  | report d =>
      refine ⟨rfl, .ok _, ?_, ?_, ?_⟩ <;> rintro _ ⟨⟩
      rfl
  | clear => refine ⟨rfl, .ok _, ?_, ?_, ?_⟩ <;> rintro _ ⟨⟩
  | turnTo r =>
      refine ⟨by simp [run, isClear, Reply.carried], .ok _, ?_, ?_, ?_⟩ <;> rintro _ ⟨⟩

end Call

/-! ## Sessions -/

/-- A workshop, and what the calls in it answered so far. -/
structure Session (α : Type) where
  workshop : Workshop α
  record : List (Call α × Reply α)

namespace Session

def start (r : Registry α) : Session α := ⟨⟨r, .empty⟩, []⟩

/-- The replies since the log was last cleared. -/
def sinceClear (s : Session α) : List (Call α × Reply α) :=
  s.record.rtakeWhile fun entry => !entry.1.isClear

variable [Add α] [Sub α] [Mul α] [Div α] [Neg α] [LT α] [LE α] [DecidableLT α] [DecidableLE α]
  [BEq α] [OfNat α 0] [OfNat α 1] [OfNat α 2] [OfScientific α] [Elementary α] [Textual α]
  [Widening α]

def step (s : Session α) (call : Call α) : Session α :=
  ⟨(call.run s.workshop).2, s.record ++ [(call, (call.run s.workshop).1)]⟩

/-- A session with a new log and one call after the other. -/
def run (r : Registry α) (calls : List (Call α)) : Session α := calls.foldl step (start r)

/-- **A log that is in order.**  It holds the diagnostics of the errors since it was last cleared, and
what was reported on demand; nothing else leaves a trace. -/
structure InOrder (s : Session α) : Prop where
  entries_eq : s.workshop.log.entries = s.sinceClear.flatMap fun entry => entry.2.carried
  /-- Every error that is raised carries a complaint of a kind that suits its call. -/
  raised : ∀ entry ∈ s.record, RefusesOnly entry.1.codes entry.2
  /-- Every error that is handed back carries the diagnostic for which it was made. -/
  returned : ∀ entry ∈ s.record, ∀ r, entry.2 = .ok (.returned r) →
    ∃ draft, entry.1 = .make draft ∧ draft.diagnostic = .ok r.diagnostic
  reported : ∀ entry ∈ s.record, ∀ d, entry.2 = .ok (.reported d) → entry.1 = .report d
  /-- Every error is of the class that belongs to its code. -/
  classed : ∀ entry ∈ s.record, ∀ r ∈ entry.2.refusal?, r.errorClass = r.code.errorClass

end Session

namespace Log

/-- **What can be read from a log** is read from the list of its entries. -/
structure Views [Textual α] (log : Log α) : Prop where
  size_eq : log.size = log.entries.length
  codes_eq : log.codes = log.entries.map Diagnostic.code
  errors_eq : log.errors = log.entries.filter fun d => d.severity = .error
  warnings_eq : log.warnings = log.entries.filter fun d => d.severity = .warning
  errors_sublist : log.errors.Sublist log.entries
  warnings_sublist : log.warnings.Sublist log.entries
  disjoint : log.errors.Disjoint log.warnings
  format_eq : log.format = "\n".intercalate (log.entries.map Diagnostic.format)

lemma views [Textual α] (log : Log α) : log.Views where
  size_eq := rfl
  codes_eq := rfl
  errors_eq := rfl
  warnings_eq := rfl
  errors_sublist := List.filter_sublist
  warnings_sublist := List.filter_sublist
  disjoint := by
    intro d herror hwarning
    have hsevere : d.severity = .error := by simpa using List.of_mem_filter herror
    have hmild : d.severity = .warning := by simpa using List.of_mem_filter hwarning
    rw [hsevere] at hmild
    cases hmild
  format_eq := rfl

end Log

namespace Session

variable [Add α] [Sub α] [Mul α] [Div α] [Neg α] [LT α] [LE α] [DecidableLT α] [DecidableLE α]
  [BEq α] [OfNat α 0] [OfNat α 1] [OfNat α 2] [OfScientific α] [Elementary α] [Textual α]
  [Widening α]

/-- A call leaves a log in order. -/
lemma InOrder.step {s : Session α} (h : s.InOrder) {call : Call α} (hundoes : call.Undoes) :
    (s.step call).InOrder := by
  have hfiled := Call.filed hundoes s.workshop
  have hrecord : ∀ {P : Call α × Reply α → Prop}, (∀ entry ∈ s.record, P entry) →
      P (call, (call.run s.workshop).1) → ∀ entry ∈ (s.step call).record, P entry := by
    intro P hold hnew entry hmem
    rcases List.mem_append.mp hmem with hmem | hmem
    · exact hold entry hmem
    · rw [List.mem_singleton.mp hmem]
      exact hnew
  refine ⟨?_, hrecord h.raised hfiled.raised, hrecord h.returned hfiled.returned,
    hrecord h.reported hfiled.reported, hrecord h.classed hfiled.classed⟩
  show (call.run s.workshop).2.log.entries = _
  rw [hfiled.entries_eq, sinceClear, Session.step, List.rtakeWhile_concat]
  cases hclear : call.isClear with
  | true =>
      rw [Call.eq_clear hclear]
      rfl
  | false => simp [h.entries_eq, sinceClear]

/-- **One report for each refusal.**  Whatever calls share a log, in whatever order and with whatever
models that can undo: the log holds, in order, what was reported and the diagnostic of every error that
was raised or handed back since it was last cleared; no other call leaves a trace. -/
theorem run_inOrder (r : Registry α) (calls : List (Call α)) (h : ∀ call ∈ calls, call.Undoes) :
    (run r calls).InOrder ∧ (run r calls).record.map Prod.fst = calls ∧
      (run r calls).workshop.log.Views := by
  have hrun : (run r calls).InOrder ∧ (run r calls).record.map Prod.fst = calls := by
    induction calls using List.reverseRecOn with
    | nil =>
        exact ⟨⟨rfl, by rintro _ ⟨⟩, by rintro _ ⟨⟩, by rintro _ ⟨⟩, by rintro _ ⟨⟩⟩, rfl⟩
    | append_singleton calls call ih =>
        have hlast : run r (calls ++ [call]) = (run r calls).step call := List.foldl_concat ..
        obtain ⟨hearlier, hcall⟩ := List.forall_mem_append.mp h
        obtain ⟨horder, hrecord⟩ := ih hearlier
        rw [hlast]
        refine ⟨horder.step (hcall call List.mem_cons_self), ?_⟩
        rw [Session.step, List.map_append, hrecord]
        rfl
  exact ⟨hrun.1, hrun.2, Log.views _⟩

/-- Calls of all kinds: a refusal that is forgotten when the log is cleared, a point that cannot be read, a
line, an arc whose mismatch cannot be written, an error that is made and one whose numbers are beyond
all doubles, and an outline that is undone after its first wall. -/
def mixedCalls : List (Call Float) := [
  .line (.point ⟨0, 0, 0⟩) (.point ⟨0, 0, 0⟩) 0,
  .clear,
  .line (.point ⟨0, 0, 0⟩) .null 0,
  .line (.point ⟨0, 0, 0⟩) (.point ⟨4, 0, 0⟩) 0,
  .curve (.point ⟨0, 0, 0⟩) (.point ⟨1, 0, 0⟩) (.point ⟨0, 2, 0⟩) false 0 (.int (-10 ^ 400)),
  .make .nullModel,
  .make (.degenerateExtrusion (.int (10 ^ 400)) (.int 0)),
  .extrudeAll (some .keeping) [.segment (.line ⟨⟨0, 4, 0⟩, ⟨4, 4, 0⟩⟩), .other]
    (.ofNumbers 3 0 extrusionTol)]

/-- Three of these calls leave a trace, and the first of them was forgotten. -/
theorem run_inOrder_mixedCalls :
    (∀ call ∈ mixedCalls, call.Undoes) ∧ (run .empty mixedCalls).InOrder ∧
      (run .empty mixedCalls).workshop.log.codes = [.nullModel, .emptySegment] ∧
      (run .empty mixedCalls).record.map (fun entry => entry.2.isOk)
        = [false, true, false, true, false, true, false, false] := by
  have hundoes : ∀ call ∈ mixedCalls, call.Undoes := by
    simp only [mixedCalls, List.forall_mem_cons, Call.Undoes, Option.mem_some_iff, forall_eq',
      Model.undoes_keeping, List.not_mem_nil, false_imp_iff, implies_true, and_self]
  exact ⟨hundoes, (run_inOrder .empty mixedCalls hundoes).1, by decide +kernel, by decide +kernel⟩

end Session

end Contour
