import Contour.Extrusion
import Contour.Proofs.Exact
import Contour.Proofs.Refusals
import Contour.Proofs.Registry

/-!
# Heights as they are handed in

Heights may be anything: numbers, integers beyond all numbers, or no numbers at all.  Whether they are
too close is found out first, and whatever cannot be compared fails there.  Integers that are apart
may still be beyond all numbers; then a model has no patch over any segment.

* `Draft.code`, `Draft.refusesOnly_refuse` — the code of an error is known before its message is written.
* `Datum.operand_fault` — what is no number fails, but not as a refused value does.
* `Heights.extrude_of_fault`, `extrude_of_tooClose`, `extrude_of_apart` — the ways of an extrusion.
* `Heights.place_of_made`, `place_of_none`, `place_of_fault` — what follows from the answer of a model.
* `Heights.ask_of_numbers`, `Heights.ask_keeping_of_fault` — asking for a patch between heights that are
  numbers, and between heights that are not.
* `Operand.extrude_of_lt`, `Operand.extrude_of_not_lt` — heights that are numbers from the start.
-/

namespace Contour

variable {α β : Type} {codes : List Code}

section Reading

variable [OfNat α 0] [OfNat α 1] [Elementary α]

/-! ## What is no number -/

namespace Datum

/-- A datum that is no number fails, but not as a refused value does. -/
lemma operand_fault {d : Datum α} {fault : Fault α} (h : d.operand = .error fault) :
    fault.isBadValue = false := by
  cases d with
  | bool value => cases h
  | real x => cases h
  | int n =>
      change (if Elementary.isInfinite (Elementary.ofInt n : α) then _ else _) = _ at h
      split_ifs at h
      cases h
      rfl
  | null | text | point | list | record =>
      cases h
      rfl

lemma refusesOnly_written (d : Datum α) : RefusesOnly codes d.written := by
  unfold written
  split
  · exact .error nofun
  · exact refusesOnly_operand _

lemma refusesOnly_gap [Sub α] (a b : Datum α) : RefusesOnly codes (a.gap b) := by
  unfold gap
  split
  · exact .ok _
  · exact a.refusesOnly_operand.bind fun _ => b.refusesOnly_operand.bind fun _ => .ok _
  · exact .error nofun

omit [OfNat α 1] in
lemma refusesOnly_less [LT α] [DecidableLT α] (a b : Datum α) : RefusesOnly codes (a.less b) := by
  unfold less
  split <;> first | exact .ok _ | exact .error nofun

end Datum

/-! ## Errors that are made -/

namespace Draft

/-- A message that cannot be written is no refusal. -/
lemma refusesOnly_complaint (d : Draft α) : RefusesOnly codes d.complaint := by
  cases d with
  | radiusMismatch first second tol =>
      exact tol.refusesOnly_written.bind fun _ => first.refusesOnly_written.bind fun _ =>
        second.refusesOnly_written.bind fun _ => .ok _
  | degenerateExtrusion top bottom =>
      exact top.refusesOnly_written.bind fun _ => bottom.refusesOnly_written.bind fun _ => .ok _
  | _ => exact .ok _

lemma refusesOnly_diagnostic (d : Draft α) : RefusesOnly codes d.diagnostic :=
  d.refusesOnly_complaint.bind fun _ => .ok _

/-- The code of a draft, which does not depend on the numbers in it. -/
def code : Draft α → Code
  | nonPlanar _ => .nonPlanarInput
  | degenerate _ => .degenerateGeometry
  | radiusMismatch _ _ _ => .radiusMismatch
  | emptySegment _ => .emptySegment
  | degenerateExtrusion _ _ => .degenerateExtrusion
  | nullModel => .nullModel
  | surfaceConstruction _ => .surfaceConstructionFailed
  | remark code _ _ => code

lemma code_of_complaint {d : Draft α} {c : Complaint α} (h : d.complaint = .ok c) : c.code = d.code := by
  cases d with
  | radiusMismatch first second tol =>
      obtain ⟨t, -, h⟩ := exists_of_bind_eq_ok h
      obtain ⟨x, -, h⟩ := exists_of_bind_eq_ok h
      obtain ⟨y, -, h⟩ := exists_of_bind_eq_ok h
      cases h
      rfl
  | degenerateExtrusion top bottom =>
      obtain ⟨x, -, h⟩ := exists_of_bind_eq_ok h
      obtain ⟨y, -, h⟩ := exists_of_bind_eq_ok h
      cases h
      rfl
  | _ =>
      cases h
      rfl

/-- Making an error never ends well. -/
lemma exists_refuse_eq (d : Draft α) : ∃ fault, (d.refuse : Except (Fault α) β) = .error fault := by
  rw [refuse]
  cases d.diagnostic with
  | error fault => exact ⟨fault, rfl⟩
  | ok diagnostic => exact ⟨_, rfl⟩

/-- A draft without hints of its own fails as a complaint of the kernel does, or its message cannot be
written. -/
lemma refusesOnly_refuse {d : Draft α} (hhints : d.hints? = none) :
    RefusesOnly [d.code] (d.refuse : Except (Fault α) β) := by
  cases hd : d.complaint with
  | error fault =>
      have hrun : (d.refuse : Except (Fault α) β) = .error fault := by
        rw [refuse, diagnostic, hd]
        rfl
      rw [hrun]
      refine .error ?_
      rintro r rfl
      exact d.refusesOnly_complaint.not_diagnosed r hd
  | ok c =>
      have hrun : (d.refuse : Except (Fault α) β) = Contour.refuse c := by
        rw [refuse, diagnostic, hd, hhints]
        rfl
      rw [hrun]
      exact .refuse (by rw [code_of_complaint hd, List.mem_singleton])

end Draft

/-! ## Numbers and what is none -/

namespace Heights

lemma fault_of_numbers {h : Heights α} {fault : Fault α} (hnumbers : h.numbers = .error fault) :
    fault.isBadValue = false := by
  unfold numbers at hnumbers
  cases htop : h.top.operand with
  | error fault' =>
      rw [htop] at hnumbers
      cases hnumbers
      exact Datum.operand_fault htop
  | ok zTop =>
      cases hbottom : h.bottom.operand with
      | error fault' =>
          rw [htop, hbottom] at hnumbers
          cases hnumbers
          exact Datum.operand_fault hbottom
      | ok zBottom =>
          rw [htop, hbottom] at hnumbers
          cases hnumbers

lemma refusesOnly_tooClose [Sub α] [LT α] [DecidableLT α] (h : Heights α) :
    RefusesOnly codes h.tooClose :=
  (h.top.refusesOnly_gap h.bottom).bind fun gap => gap.refusesOnly_less h.tol

@[simp] lemma tooClose_ofNumbers [Sub α] [LT α] [DecidableLT α] (zTop zBottom tol : α) :
    (ofNumbers zTop zBottom tol).tooClose
      = .ok (decide (Elementary.abs (zTop - zBottom) < tol)) := rfl

end Heights

end Reading

/-! ## The ways of an extrusion -/

section Arithmetic

variable [Add α] [Sub α] [Mul α] [Div α] [LT α] [LE α] [DecidableLT α] [DecidableLE α]
  [BEq α] [OfNat α 0] [OfNat α 1] [OfNat α 2] [OfScientific α] [Elementary α]

namespace Heights

variable {h : Heights α} {model : Option (Model α)} {o : Operand α} {s : Segment α} {m : Model α}
  {w : Workshop α}

lemma extrude_of_fault {fault : Fault α} (hclose : h.tooClose = .error fault) :
    h.extrude model o w = (.error fault, w) := by
  rw [extrude, hclose]
  rfl

lemma extrude_of_tooClose (hclose : h.tooClose = .ok true) :
    h.extrude model o w
      = Building.onLog (logged (Draft.degenerateExtrusion h.top h.bottom).refuse) w := by
  rw [extrude, hclose]
  rfl

lemma extrude_of_apart (hclose : h.tooClose = .ok false) :
    h.extrude model o w = h.place model o w := by
  rw [extrude, hclose]
  rfl

section Answers

variable {r : Registry α}

/-- A patch that the model answers with is the result. -/
lemma place_of_made {p : Patch α} (hask : h.ask s m w.registry = (.ok (some p), r)) :
    h.place (some m) (.segment s) w = (.ok p, ⟨r, w.log⟩) := by
  have hrun : Building.onRegistry (h.ask s m) w = (.ok (some p), ⟨r, w.log⟩) := by
    rw [Building.onRegistry, hask]
  refine (bind_of_ok (congrArg Prod.fst hrun)).trans ?_
  rw [hrun]
  rfl

/-- No patch for an answer is refused. -/
lemma place_of_none (hask : h.ask s m w.registry = (.ok none, r)) :
    h.place (some m) (.segment s) w
      = Building.refuse (.surfaceConstruction s.surfaceName) ⟨r, w.log⟩ := by
  have hrun : Building.onRegistry (h.ask s m) w = (.ok none, ⟨r, w.log⟩) := by
    rw [Building.onRegistry, hask]
  refine (bind_of_ok (congrArg Prod.fst hrun)).trans ?_
  rw [hrun]

/-- A fault of the model passes. -/
lemma place_of_fault {fault : Fault α} (hask : h.ask s m w.registry = (.error fault, r)) :
    h.place (some m) (.segment s) w = (.error fault, ⟨r, w.log⟩) := by
  have hrun : Building.onRegistry (h.ask s m) w = (.error fault, ⟨r, w.log⟩) := by
    rw [Building.onRegistry, hask]
  refine (bind_of_error (congrArg Prod.fst hrun)).trans ?_
  rw [hrun]

end Answers

/-- Heights that are numbers are handed on as they are. -/
lemma ask_of_numbers {zTop zBottom : α} (hnumbers : h.numbers = .ok (zTop, zBottom)) (s : Segment α)
    (m : Model α) : h.ask s m = s.extrude m zTop zBottom := by
  rw [ask, hnumbers]

lemma ask_ofNumbers (zTop zBottom tol : α) (s : Segment α) (m : Model α) :
    (ofNumbers zTop zBottom tol).ask s m = s.extrude m zTop zBottom := rfl

/-- **Between heights that are no numbers there is no patch**, and a model of its own stays as it is. -/
lemma ask_keeping_of_fault {fault : Fault α} (hnumbers : h.numbers = .error fault) (s : Segment α)
    (r : Registry α) :
    h.ask s .keeping r = (.ok none, r) ∨ h.ask s .keeping r = (.error fault, r) := by
  have hfault := fault_of_numbers hnumbers
  rw [ask, hnumbers]
  cases s with
  | line l => exact .inr rfl
  | curve c =>
      cases hboundary : Boundary.ofPoints c.center c.start c.stop (coincidentTol : α) with
      | error fault' =>
          left
          simp only [hboundary]
          rfl
      | ok boundary =>
          simp only [hboundary]
          show Registering.orNone (Registering.register (Except.map Shape.cylinder (do
            Cylinder.checkRadius boundary.radius
            throw fault))) r = _ ∨ _
          cases hradius : Cylinder.checkRadius boundary.radius with
          | error fault' =>
              left
              unfold Cylinder.checkRadius at hradius
              split_ifs at hradius
              cases hradius
              exact Registering.orNone_register_error rfl r
          | ok _ =>
              right
              show Registering.orNone (Registering.register (.error fault)) r = _
              rw [Registering.orNone, Registering.register_error]
              simp only [hfault, Bool.false_eq_true, if_false]

end Heights

/-! ## Heights that are numbers -/

namespace Operand

variable {model : Option (Model α)} {o : Operand α} {zTop zBottom tol : α} {w : Workshop α}

/-- Heights that are too close are refused and reported. -/
lemma extrude_of_lt (h : Elementary.abs (zTop - zBottom) < tol) :
    extrude model o zTop zBottom tol w
      = Building.refuse (.degenerateExtrusion zTop zBottom) w := by
  have hclose : (Heights.ofNumbers zTop zBottom tol).tooClose = .ok true := by simp [h]
  exact Heights.extrude_of_tooClose hclose

/-- Otherwise the operand is looked at. -/
lemma extrude_of_not_lt (h : ¬ Elementary.abs (zTop - zBottom) < tol) :
    extrude model o zTop zBottom tol w = (Heights.ofNumbers zTop zBottom tol).place model o w := by
  have hclose : (Heights.ofNumbers zTop zBottom tol).tooClose = .ok false := by simp [h]
  exact Heights.extrude_of_apart hclose

end Operand

end Arithmetic

end Contour
