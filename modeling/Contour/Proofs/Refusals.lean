import Contour.Operand
import Mathlib

/-!
# What each function refuses

A refusal is a failure with a diagnostic, of the class that belongs to its code.  Most functions of
the kernel never refuse anything, whatever else may go wrong in them; those that do have few reasons.
Both can be read off their exits, without a law about numbers.

* `RefusesOnly` — the kinds of refusals of a computation; they are complaints of the kernel, graver
  than warnings and with no hints but their own, and their class is that of their code.
* `RefusesOnly.bind`, `mapM`, `filterM` — computations made of others.
* `Datum.refusesOnly_toPoint`, `Segment.refusesOnly_intersect`, … — the functions one by one; a list
  of kinds that may be any stands for none.
-/

namespace Contour

section Computations

variable {α β γ : Type} {codes codes' : List Code} {x : Except (Fault α) β}

/-- A computation whose refusals are complaints of the given kinds. -/
def RefusesOnly (codes : List Code) (x : Except (Fault α) β) : Prop :=
  ∀ d, x = .error (.diagnosed d) → d = .ofComplaint d.complaint ∧ d.code ∈ codes

namespace RefusesOnly

lemma ok (b : β) : RefusesOnly codes (.ok b : Except (Fault α) β) := by
  rintro d ⟨⟩

lemma error {fault : Fault α} (h : ∀ d, fault ≠ .diagnosed d) :
    RefusesOnly codes (.error fault : Except (Fault α) β) := by
  rintro d ⟨⟩
  exact absurd rfl (h d)

lemma refuse {c : Complaint α} (h : c.code ∈ codes) :
    RefusesOnly codes (Contour.refuse c : Except (Fault α) β) := by
  rintro d ⟨⟩
  exact ⟨rfl, h⟩

lemma mono (h : RefusesOnly codes x) (hsub : codes ⊆ codes') : RefusesOnly codes' x :=
  fun d hd => ⟨(h d hd).1, hsub (h d hd).2⟩

/-- What has no reason for a refusal is not refused. -/
lemma not_diagnosed (h : RefusesOnly [] x) (d : Refusal α) : x ≠ .error (.diagnosed d) := by
  intro hd
  cases (h d hd).2

/-- A refusal is of the class of its code. -/
lemma errorClass {r : Refusal α} (h : RefusesOnly codes (.error (.diagnosed r) : Except (Fault α) β)) :
    r.errorClass = r.code.errorClass := by
  rw [(h r rfl).1]
  rfl

lemma bind {f : β → Except (Fault α) γ} (hx : RefusesOnly codes x)
    (hf : ∀ b, RefusesOnly codes (f b)) : RefusesOnly codes (x >>= f) := by
  cases x with
  | error fault =>
      rintro d ⟨⟩
      exact hx d rfl
  | ok b => exact hf b

lemma mapM {f : β → Except (Fault α) γ} (h : ∀ b, RefusesOnly codes (f b)) (items : List β) :
    RefusesOnly codes (items.mapM f) := by
  induction items with
  | nil => exact .ok _
  | cons b rest ih =>
      rw [List.mapM_cons]
      exact (h b).bind fun _ => ih.bind fun _ => .ok _

lemma filterM {f : β → Except (Fault α) Bool} (h : ∀ b, RefusesOnly codes (f b)) (items : List β) :
    RefusesOnly codes (items.filterM f) := by
  have haux : ∀ kept, RefusesOnly codes (items.filterAuxM f kept) := by
    induction items with
    | nil => exact fun _ => .ok _
    | cons b rest ih =>
        intro kept
        rw [List.filterAuxM]
        exact (h b).bind fun _ => ih _
  exact (haux []).bind fun _ => .ok _

end RefusesOnly

end Computations

/-! ## Checked arithmetic and outside data -/

section Reading

variable {α : Type} {codes : List Code}

lemma refusesOnly_quotient {β : Type} [Div α] [BEq α] [OfNat α 0] (a b : α) :
    RefusesOnly codes (quotient a b : Except (Fault β) α) := by
  unfold quotient
  split_ifs
  · exact .error nofun
  · exact .ok _

variable [Elementary α]

lemma refusesOnly_sine (angle : α) : RefusesOnly codes (sine angle) := by
  unfold sine
  split_ifs
  · exact .error nofun
  · exact .ok _

lemma refusesOnly_cosine (angle : α) : RefusesOnly codes (cosine angle) := by
  unfold cosine
  split_ifs
  · exact .error nofun
  · exact .ok _

lemma Point.refusesOnly_polar [Add α] [Mul α] (center : Point α) (radius angle : α) :
    RefusesOnly codes (center.polar radius angle) :=
  (refusesOnly_cosine angle).bind fun _ => (refusesOnly_sine angle).bind fun _ => .ok _

namespace Datum

variable [OfNat α 0] [OfNat α 1]

lemma refusesOnly_operand (d : Datum α) : RefusesOnly codes d.operand := by
  cases d with
  | bool value => exact .ok _
  | real x => exact .ok _
  | int n =>
      rw [operand, ofInteger]
      split_ifs
      · exact .error nofun
      · exact .ok _
  | null | text | point | list | record => exact .error nofun

lemma refusesOnly_comparand (d : Datum α) : RefusesOnly codes d.comparand := by
  unfold comparand
  split
  · exact .ok _
  · exact refusesOnly_operand _

variable [Textual α]

lemma refusesOnly_number (d : Datum α) : RefusesOnly codes d.number := by
  unfold number
  split
  · split
    · exact .ok _
    · exact .error nofun
  · exact refusesOnly_operand _

lemma refusesOnly_toPoint [OfScientific α] (d : Datum α) : RefusesOnly codes d.toPoint := by
  have hpoint : ∀ x y z : Datum α, RefusesOnly codes (do
      return (⟨← x.number, ← y.number, ← z.number⟩ : Point α)) := fun x y z =>
    (refusesOnly_number x).bind fun _ => (refusesOnly_number y).bind fun _ =>
      (refusesOnly_number z).bind fun _ => .ok _
  have hscalars : ∀ x y z : Datum α, RefusesOnly codes (scalars x y z) := by
    intro x y z
    unfold scalars
    split_ifs
    · exact hpoint x y z
    · exact .error nofun
  unfold toPoint pointOf
  split
  · exact .ok _
  · unfold coordinates
    split
    · exact hpoint _ _ _
    · exact .error nofun
  · exact hscalars _ _ _

end Datum

end Reading

/-! ## Construction -/

section Construction

variable {α : Type} [LE α] [DecidableLE α] [BEq α] [OfNat α 0]

lemma Circle.refusesOnly_ofRadius (center : Point α) (radius tol : α) :
    RefusesOnly [.nonPlanarInput, .degenerateGeometry] (Circle.ofRadius center radius tol) := by
  unfold ofRadius
  split_ifs
  · exact .refuse (by simp [Complaint.code])
  · exact .refuse (by simp [Complaint.code])
  · exact .ok _

variable [Sub α] [Elementary α]

lemma Line.refusesOnly_ofEnds (start stop : Point α) (tol : α) :
    RefusesOnly [.nonPlanarInput, .degenerateGeometry] (Line.ofEnds start stop tol) := by
  unfold ofEnds
  split_ifs
  · exact .refuse (by simp [Complaint.code])
  · exact .refuse (by simp [Complaint.code])
  · exact .ok _

lemma Curve.refusesOnly_ofEnds [Add α] [Mul α] [Div α] [LT α] [DecidableLT α] [OfNat α 2]
    (center start stop : Point α) (clockwise : Bool) (tol radiusTol : α) :
    RefusesOnly [.nonPlanarInput, .degenerateGeometry, .radiusMismatch]
      (Curve.ofEnds center start stop clockwise tol radiusTol) := by
  unfold ofEnds
  dsimp only
  split_ifs
  · exact .refuse (by simp [Complaint.code])
  · exact .refuse (by simp [Complaint.code])
  · exact .ok _
  · exact .refuse (by simp [Complaint.code])
  · exact .ok _

end Construction

lemma Operand.refusesOnly_require {α : Type} (which : String) (o : Operand α) :
    RefusesOnly [.emptySegment] (o.require which) := by
  cases o with
  | segment s => exact .ok _
  | other => exact .refuse (by simp [Complaint.code])

/-! ## Intersecting -/

section Solvers

variable {α : Type} {codes : List Code} [Add α] [Sub α] [Mul α] [LE α] [DecidableLE α]
  [Elementary α]

lemma Line.refusesOnly_intersect [Div α] [Neg α] [LT α] [DecidableLT α] [BEq α] [OfNat α 0]
    [OfNat α 1] [OfScientific α] (a b : Line α) (tol : α) :
    RefusesOnly codes (a.intersect b tol) := by
  unfold intersect
  split_ifs
  · -- parallel lines
    refine (refusesOnly_quotient _ _).bind fun off => ?_
    split_ifs
    · exact .ok _
    · refine (refusesOnly_quotient _ _).bind fun first =>
        (refusesOnly_quotient _ _).bind fun last => ?_
      dsimp only
      split_ifs <;> exact .ok _
  · -- lines that cross
    refine (refusesOnly_quotient _ _).bind fun s => (refusesOnly_quotient _ _).bind fun t =>
      (refusesOnly_quotient _ _).bind fun slackA => ?_
    split_ifs
    · exact .ok _
    · refine (refusesOnly_quotient _ _).bind fun slackB => ?_
      split_ifs <;> exact .ok _

namespace Arc

lemma refusesOnly_pointAt (a b : Arc α) (shift angle tol : α) :
    RefusesOnly codes (a.pointAt b shift angle tol) := by
  unfold pointAt
  dsimp only
  split
  · exact .ok _
  · exact Point.refusesOnly_polar _ _ _

lemma refusesOnly_touching [OfScientific α] (a b : Arc α) (runs : List (Run α)) (tol : α) :
    RefusesOnly codes (a.touching b runs tol) := by
  refine (RefusesOnly.mapM (fun _ => a.refusesOnly_pointAt b _ _ tol) runs).bind fun points => ?_
  split
  · split_ifs <;> exact .ok _
  · exact .ok _

end Arc

variable [Div α] [BEq α] [OfNat α 0] [OfNat α 2]

lemma Curve.refusesOnly_covers (c : Curve α) (p : Point α) (tol : α) :
    RefusesOnly codes (c.covers p tol) := by
  cases c with
  | arc a => exact (refusesOnly_quotient _ _).bind fun _ => .ok _
  | circle k => exact .ok _

variable [LT α] [DecidableLT α]

namespace Circle

lemma refusesOnly_crossings (a b : Circle α) : RefusesOnly codes (a.crossings b) :=
  (refusesOnly_quotient _ _).bind fun _ => (refusesOnly_quotient _ _).bind fun _ =>
    (refusesOnly_quotient _ _).bind fun _ => .ok _

lemma refusesOnly_intersect (a b : Circle α) (radiusTol : α) :
    RefusesOnly codes (a.intersect b radiusTol) := by
  unfold intersect
  split
  · exact .ok _
  · exact .ok _
  · exact (refusesOnly_crossings a b).bind fun _ => .ok _

end Circle

lemma Curve.refusesOnly_select (c : Curve α) (points : List (Point α)) (tol : α) :
    RefusesOnly codes (c.select points tol) := by
  cases c with
  | circle k => exact .ok _
  | arc a =>
      exact (RefusesOnly.filterM (fun p => (arc a).refusesOnly_covers p tol) points).bind
        fun _ => .ok _

lemma Line.refusesOnly_intersectCurve [OfNat α 1] [Widening α] (l : Line α) (c : Curve α)
    (tol radiusTol : α) : RefusesOnly codes (l.intersectCurve c tol radiusTol) := by
  have hroots : ∀ q : Quadratic α, RefusesOnly codes q.roots := fun q =>
    (refusesOnly_quotient _ _).bind fun _ => (refusesOnly_quotient _ _).bind fun _ => .ok _
  unfold intersectCurve
  dsimp only
  split_ifs
  · exact .ok _
  · exact .ok _
  · exact (hroots _).bind fun _ => (c.refusesOnly_select _ tol).bind fun _ => .ok _

variable [Neg α] [OfScientific α]

lemma Arc.refusesOnly_overlap (a b : Arc α) (tol : α) : RefusesOnly codes (a.overlap b tol) := by
  unfold overlap
  dsimp only
  split
  · exact (a.refusesOnly_pointAt b _ _ tol).bind fun _ =>
      (a.refusesOnly_pointAt b _ _ tol).bind fun _ => .ok _
  · exact (a.refusesOnly_touching b _ tol).bind fun _ => .ok _

namespace Curve

lemma refusesOnly_intersectSame (a b : Curve α) (tol : α) :
    RefusesOnly codes (a.intersectSame b tol) := by
  cases a with
  | circle k => exact .ok _
  | arc a =>
      cases b with
      | circle k => exact .ok _
      | arc b => exact a.refusesOnly_overlap b tol

lemma refusesOnly_intersectArcs (a b : Curve α) (tol radiusTol : α) :
    RefusesOnly codes (a.intersectArcs b tol radiusTol) := by
  have hboth : ∀ p, RefusesOnly codes (a.bothCover b tol p) := by
    intro p
    refine (a.refusesOnly_covers p tol).bind fun covered => ?_
    split_ifs
    · exact b.refusesOnly_covers p tol
    · exact .ok _
  unfold intersectArcs
  by_cases hsame : a.support.same b.support radiusTol = true
  · rw [if_pos hsame]
    exact a.refusesOnly_intersectSame b tol
  · rw [if_neg hsame]
    split
    · exact .ok _
    · exact .ok _
    · exact (Circle.refusesOnly_crossings _ _).bind fun points =>
        (RefusesOnly.filterM hboth points).bind fun _ => .ok _

end Curve

variable [OfNat α 1] [Widening α]

/-- **Segments of any kind are intersected without a refusal.** -/
lemma Segment.refusesOnly_intersect (s t : Segment α) (tol radiusTol : α) :
    RefusesOnly codes (s.intersect t tol radiusTol) := by
  cases s with
  | line a =>
      cases t with
      | line b => exact a.refusesOnly_intersect b tol
      | curve c => exact a.refusesOnly_intersectCurve c tol radiusTol
  | curve c =>
      cases t with
      | line b => exact b.refusesOnly_intersectCurve c tol radiusTol
      | curve d =>
          have harcs : RefusesOnly codes (c.intersectArcs d tol radiusTol) :=
            c.refusesOnly_intersectArcs d tol radiusTol
          cases c with
          | arc a => exact harcs
          | circle k =>
              cases d with
              | arc a => exact harcs
              | circle k' => exact k.refusesOnly_intersect k' radiusTol

lemma Operand.refusesOnly_intersection (a b : Operand α) (tol radiusTol : α) :
    RefusesOnly [.emptySegment] (a.intersection b tol radiusTol) :=
  (refusesOnly_require _ a).bind fun s => (refusesOnly_require _ b).bind fun t =>
    s.refusesOnly_intersect t tol radiusTol

end Solvers

end Contour
