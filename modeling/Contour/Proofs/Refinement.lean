import Contour.Proofs.Circles
import Contour.Proofs.Meeting

/-!
# Curves and the circles they lie on

Two full circles are compared by one solver, and curves of which one is an arc by another.  The
second places the circles as the first does, and then keeps some of the points, in an order of its
own.  Nothing about numbers is used here: what follows holds in every arithmetic.

* `Curve.accepts` — the test of a point by its direction, as the kernel makes it;
  `Curve.bothCover_eq_accepts` says that the test comes to an end.
* `Curve.Refines` — a result about two curves that is part of a result about their circles.
* `Curve.intersectArcs_refines` — what the solver for arcs finds is part of what the solver for
  circles finds, and they fail alike.
* `Segment.intersect_refines_circles` — the same for any two curves.
-/

namespace Contour

section Arithmetic

variable {α : Type} [Add α] [Sub α] [Mul α] [Div α] [LE α] [DecidableLE α] [BEq α] [OfNat α 0]
  [OfNat α 2] [Elementary α]

namespace Curve

/-- Whether the direction of a point passes the test of a curve; a circle lets every point pass. -/
def accepts (c : Curve α) (tol : α) (p : Point α) : Bool :=
  match c.covers p tol with
  | .ok passed => passed
  | .error _ => false

/-- A result about two curves that has the flag of a result about their circles, and of its points
those that pass the tests of both curves. -/
structure Refines (a b : Curve α) (tol : α) (whole r : Intersection α) : Prop where
  flag_eq : r.flag = whole.flag
  points_perm : r.points.Perm (whole.points.filter fun p => a.accepts tol p && b.accepts tol p)

variable {a b : Curve α} {tol radiusTol : α}

lemma covers_eq_accepts (ha : (a.radius == 0) = false) (p : Point α) :
    a.covers p tol = .ok (a.accepts tol p) := by
  cases a with
  | arc k =>
      change (k.radius == 0) = false at ha
      have hquotient : (quotient tol k.radius : Except (Fault α) α) = .ok (tol / k.radius) := by
        simp [quotient, ha]
      simp only [accepts, covers, Arc.covers, hquotient]
      rfl
  | circle k => rfl

/-- The tests of curves whose radius is not zero come to an end. -/
lemma bothCover_eq_accepts (ha : (a.radius == 0) = false) (hb : (b.radius == 0) = false)
    (p : Point α) : a.bothCover b tol p = .ok (a.accepts tol p && b.accepts tol p) := by
  rw [bothCover, covers_eq_accepts ha, covers_eq_accepts hb]
  cases a.accepts tol p <;> rfl

variable [Neg α] [LT α] [DecidableLT α] [OfScientific α]

/-- **The solver for arcs refines the solver for circles.**  Unless the circles are the same, it
fails as that one does, and otherwise finds part of what that one finds. -/
lemma intersectArcs_refines (tol : α) (ha : (a.radius == 0) = false) (hb : (b.radius == 0) = false)
    (hsame : a.support.same b.support radiusTol = false) :
    (∀ fault, a.support.intersect b.support radiusTol = .error fault →
      a.intersectArcs b tol radiusTol = .error fault) ∧
    ∀ whole, a.support.intersect b.support radiusTol = .ok whole →
      ∃ r, a.intersectArcs b tol radiusTol = .ok r ∧ a.Refines b tol whole r := by
  have hdistinct : ¬ a.support.same b.support radiusTol = true := by simp [hsame]
  rw [intersectArcs, if_neg hdistinct, Circle.intersect]
  cases a.support.position b.support radiusTol with
  | apart =>
      refine ⟨fun _ => by rintro ⟨⟩, ?_⟩
      rintro _ ⟨⟩
      exact ⟨_, rfl, rfl, .nil⟩
  | related flag =>
      refine ⟨fun _ => by rintro ⟨⟩, ?_⟩
      rintro _ ⟨⟩
      exact ⟨_, rfl, rfl, .nil⟩
  | crossing =>
      dsimp only
      cases hcross : a.support.crossings b.support with
      | error fault =>
          refine ⟨?_, fun _ => by rintro ⟨⟩⟩
          rintro _ ⟨⟩
          rfl
      | ok points =>
          have hkept : points.filterM (a.bothCover b tol)
              = .ok (points.filter fun p => a.accepts tol p && b.accepts tol p) :=
            filterM_ok (bothCover_eq_accepts ha hb) points
          refine ⟨fun _ => by rintro ⟨⟩, ?_⟩
          rintro _ ⟨⟩
          refine ⟨.crossing ((if a.isArc then a else b).orderAlong
            (points.filter fun p => a.accepts tol p && b.accepts tol p)), ?_, rfl, ordered_perm _ _⟩
          show (points.filterM (a.bothCover b tol) >>= fun kept => _) = _
          rw [hkept]
          rfl

end Curve

variable [Neg α] [LT α] [DecidableLT α] [OfNat α 1] [OfScientific α] [Widening α]

/-- **Arcs refine their circles.**  Two curves on circles that are not the same have the flag that
the two full circles have, and of their points exactly those, in some order, that pass the tests of
both curves; where the circles cannot be compared, neither can the curves.  Of a radius nothing is
asked but that it does not equal zero, which no positive number does. -/
theorem Segment.intersect_refines_circles (a b : Curve α) (tol radiusTol : α)
    (ha : (a.radius == 0) = false) (hb : (b.radius == 0) = false)
    (hsame : a.support.same b.support radiusTol = false) :
    (∀ fault, (curve (.circle a.support)).intersect (curve (.circle b.support)) tol radiusTol
        = .error fault → (curve a).intersect (curve b) tol radiusTol = .error fault) ∧
    ∀ whole, (curve (.circle a.support)).intersect (curve (.circle b.support)) tol radiusTol
        = .ok whole →
      ∃ r, (curve a).intersect (curve b) tol radiusTol = .ok r ∧ a.Refines b tol whole r := by
  have hrefines := Curve.intersectArcs_refines tol ha hb hsame
  cases a with
  | arc k => exact hrefines
  | circle k =>
      cases b with
      | arc l => exact hrefines
      | circle l =>
          refine ⟨fun _ h => h, fun whole h => ⟨whole, h, rfl, ?_⟩⟩
          have hall : whole.points.filter (fun p => (Curve.circle k).accepts tol p &&
              (Curve.circle l).accepts tol p) = whole.points := List.filter_eq_self.mpr fun _ _ => rfl
          rw [hall]

end Arithmetic

open Line

/-- The circle of the upper half and one with its center eight to the right share two points, of which
the upper half keeps the upper one. -/
theorem Segment.intersect_refines_circles_upper_half :
    ((Curve.arc upperHalf).radius == 0) = false ∧
      ((Curve.circle ⟨⟨8, 0, 0⟩, 5⟩ : Curve ℝ).radius == 0) = false ∧
      (Curve.arc upperHalf).support.same ⟨⟨8, 0, 0⟩, 5⟩ radiusTol = false ∧
      ∃ whole r, (curve (.circle (Curve.arc upperHalf).support)).intersect
          (curve (.circle ⟨⟨8, 0, 0⟩, 5⟩)) coincidentTol radiusTol = .ok whole ∧
        (curve (.arc upperHalf)).intersect (curve (.circle ⟨⟨8, 0, 0⟩, 5⟩)) coincidentTol radiusTol
          = .ok r ∧
        whole.points.length = 2 ∧ r.flag = .plain ∧ ⟨4, 3, 0⟩ ∈ r.points := by
  set a : Curve ℝ := .arc upperHalf
  set b : Curve ℝ := .circle ⟨⟨8, 0, 0⟩, 5⟩
  have hradius : a.support.radius = 5 := Point.dist_origin (by norm_num) (by norm_num)
  have hradius' : b.support.radius = 5 := rfl
  have hdist : a.support.center.dist b.support.center = 8 := by
    rw [Point.dist_comm]
    exact Point.dist_origin (by norm_num) (by norm_num)
  have ha : (a.radius == 0) = false := by
    rw [show a.radius = 5 from hradius]
    norm_num
  have hb : (b.radius == 0) = false := by
    rw [show b.radius = 5 from rfl]
    norm_num
  have hsame : a.support.same b.support radiusTol = false := by
    have hcenter : a.support.center.agrees b.support.center radiusTol = false := by
      refine Point.agrees_eq_false ?_
      rw [hdist, radiusTol_eq]
      norm_num
    rw [Circle.same, hcenter, Bool.false_and]
  have hposition : a.support.position b.support radiusTol = .crossing := by
    unfold Circle.position
    rw [hdist, hradius, hradius', hsame, radiusTol_eq]
    norm_num
  obtain ⟨p, q, hcross, -, hmem⟩ := Circle.crossings_spec (a := a.support) (b := b.support)
    made_upperHalf.support ⟨rfl, by norm_num [hradius']⟩
    (by rw [hdist, hradius, hradius']; norm_num) (by rw [hdist, hradius, hradius']; norm_num)
  have hwhole : a.support.intersect b.support radiusTol = .ok (.crossing [p, q]) := by
    rw [Circle.intersect, hposition, hcross]
    rfl
  obtain ⟨-, hrefines⟩ := intersect_refines_circles a b coincidentTol radiusTol ha hb hsame
  obtain ⟨r, hr, hflag, hpoints⟩ := hrefines _ hwhole
  refine ⟨ha, hb, hsame, _, r, hwhole, hr, rfl, hflag, ?_⟩
  rw [hpoints.mem_iff, List.mem_filter]
  constructor
  · have hshared : (⟨4, 3, 0⟩ : Point ℝ) ∈ a.support.outline ∩ b.support.outline := by
      refine ⟨⟨rfl, ?_⟩, rfl, ?_⟩
      · rw [hradius]
        exact Point.dist_origin (by norm_num) (by norm_num)
      · show (⟨4, 3, 0⟩ : Point ℝ).dist ⟨8, 0, 0⟩ = 5
        rw [Point.dist_eq_iff (by norm_num)]
        norm_num
    rw [hmem] at hshared
    simpa [Intersection.crossing] using hshared
  · have hreaches : a.reaches coincidentTol ⟨4, 3, 0⟩ = true :=
      (Curve.reaches_iff made_upperHalf _).mpr (upperHalf_spans (by norm_num))
    have haccepts : a.accepts coincidentTol ⟨4, 3, 0⟩ = true := by
      rw [Curve.accepts, Curve.covers_eq made_upperHalf.support, hreaches]
    rw [haccepts]
    rfl

end Contour
