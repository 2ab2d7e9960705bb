import Contour.Proofs.Difference
import Contour.Proofs.Sweep

/-!
# The patch over an arc as it is stored

The radius and the angles of an arc are found in two places.  Construction takes the radius at the
point where drawing starts, and a builder at the point where the counter-clockwise sweep starts; each
of them measures from its own side.  This file says how much of the stored arc the patch over it has,
in every arithmetic in which a difference has the same size both ways.

* `Cylinder.Over` — a part of a cylinder that is over an arc.
* `Arc.extrude_over` — every patch over an arc is registered, and is.
* `Arc.extrude_loses_radius` — a clockwise arc whose ends differ in their radii is not extruded at
  the radius that it stores.
-/

namespace Contour

section Stored

variable {α : Type} [Add α] [Sub α] [Mul α] [Div α] [LT α] [LE α] [DecidableLT α] [DecidableLE α]
  [BEq α] [OfNat α 0] [OfNat α 1] [OfNat α 2] [OfScientific α] [Elementary α]

/-- A part of a cylinder over an arc.  It has the angles of the arc.  Its radius is that of the end
where the counter-clockwise sweep starts, and so the stored one unless the arc was drawn clockwise
between ends that differ in their radii; then it is near. -/
structure Cylinder.Over (c : Cylinder α) (a : Arc α) (zTop zBottom : α) : Prop where
  center_eq : c.center = a.center.withZ 0
  uRange_eq : (Shape.cylinder c).uRange = (a.startAngle, a.endAngle)
  vRange_eq : (Shape.cylinder c).vRange
    = (Scalar.smaller zTop zBottom, Scalar.larger zTop zBottom)
  radius_eq : c.radius = a.start.dist a.center
  radius_of_counterclockwise : a.clockwise = false → c.radius = a.radius
  radius_of_clockwise : a.clockwise = true → ¬ radiusTol < Elementary.abs (c.radius - a.radius)
  radius_of_level : a.start.dist a.center = a.stop.dist a.center → c.radius = a.radius

namespace Arc

variable {center start stop : Point α} {clockwise : Bool} {a : Arc α} {zTop zBottom tol : α}
  {w : Workshop α} {p : Patch α}

/-- The radius that an arc stores is that of its first or of its last end. -/
lemma over_of_stored (h : a.Stored coincidentTol radiusTol) (zTop zBottom : α) :
    Cylinder.Over ⟨a.center.withZ 0, a.start.dist a.center, a.startAngle, a.endAngle,
      Scalar.smaller zTop zBottom, Scalar.larger zTop zBottom⟩ a zTop zBottom where
  center_eq := rfl
  uRange_eq := rfl
  vRange_eq := rfl
  radius_eq := rfl
  radius_of_counterclockwise hccw := by
    rw [h.radius_eq, Arc.start, hccw]
    rfl
  radius_of_clockwise hclockwise := by
    rw [Arc.start, hclockwise]
    exact h.radius_near
  radius_of_level hlevel := by
    rw [h.radius_eq]
    rcases a.ends_cases with ⟨hstart, -⟩ | ⟨-, hstop⟩
    · rw [← hstart]
    · rw [hlevel, hstop]

variable [LawfulDifference α]

/-- **The patch over an arc has what the arc stores**, whichever way it was drawn and whatever was
registered before: all of its angles, and its radius as far as construction made sure of it. -/
theorem extrude_over
    (harc : Curve.ofEnds center start stop clockwise coincidentTol radiusTol = .ok (.arc a))
    (h : (Operand.extrude (some .keeping) (.segment (.curve (.arc a))) zTop zBottom tol w).1
      = .ok p) :
    (Operand.extrude (some .keeping) (.segment (.curve (.arc a))) zTop zBottom tol
        w).2.registry.surfaces = w.registry.surfaces ++ [p] ∧
      ∃ c, p.shape = .cylinder c ∧ c.Over a zTop zBottom := by
  have hstored := Curve.stored_of_ofEnds harc
  obtain ⟨hid, hgrown⟩ := Operand.grow_of_extrude h
  constructor
  · rw [hgrown, Registry.grow, ← hid]
    rfl
  · have hswept := Operand.swept_of_extrude h
    rw [swept_eq hstored] at hswept
    cases hcylinder : Cylinder.ofRanges (a.center.withZ 0) (a.start.dist a.center) a.startAngle
        a.endAngle (Scalar.smaller zTop zBottom) (Scalar.larger zTop zBottom) with
    | error fault =>
        rw [hcylinder] at hswept
        cases hswept
    | ok c =>
        rw [hcylinder] at hswept
        refine ⟨c, (Except.ok.inj hswept).symm, ?_⟩
        rw [Cylinder.ofRanges_eq_ok hcylinder]
        exact over_of_stored hstored zTop zBottom

end Arc

end Stored

/-! ## An arc with two radii -/

namespace Arc

/-- A quarter of a circle, drawn clockwise and inwards. -/
noncomputable def lopsidedQuarter : Arc ℝ :=
  ⟨⟨0, 0, 0⟩, 4.0005, ⟨0, 4.0005, 0⟩, ⟨4, 0, 0⟩, 0, Real.pi / 2, true⟩

/-- The two radii agree as far as construction asks for. -/
lemma ofEnds_lopsidedQuarter :
    Curve.ofEnds ⟨0, 0, 0⟩ ⟨0, 4.0005, 0⟩ ⟨4, 0, 0⟩ true coincidentTol radiusTol
      = .ok (.arc lopsidedQuarter) := by
  have hstart : (⟨0, 4.0005, 0⟩ : Point ℝ).dist ⟨0, 0, 0⟩ = 4.0005 :=
    Point.dist_origin (by norm_num) (by norm_num)
  have hstop : (⟨4, 0, 0⟩ : Point ℝ).dist ⟨0, 0, 0⟩ = 4 :=
    Point.dist_origin (by norm_num) (by norm_num)
  have hupright : (⟨0, 4.0005, 0⟩ : Point ℝ).angleXY ⟨0, 0, 0⟩ = Real.pi / 2 :=
    Complex.arg_eq_pi_div_two_iff.mpr (by norm_num)
  rw [Curve.ofEnds_of_near ⟨rfl, rfl, rfl⟩ ?_ ?_ ?_, hstart, hupright,
    Point.angleXY_right four_pos, Arc.angles, if_pos rfl, Angle.unwrapAfter_of_le (by positivity)]
  · rfl
  · rw [Point.agrees_eq_false, Point.agrees_eq_false, Bool.or_false]
    · rw [Point.dist_comm, hstop, coincidentTol_eq]
      norm_num
    · rw [Point.dist_comm, hstart, coincidentTol_eq]
      norm_num
  · simp only [Point.agrees, elementary_abs, coincidentTol_eq]
    norm_num
  · rw [hstart, hstop, radiusTol_eq]
    norm_num

/-- The builder finds the radius of the end that construction only compares. -/
lemma extrude_lopsidedQuarter :
    (Operand.extrude (some .keeping) (.segment (.curve (.arc lopsidedQuarter))) 1 0 extrusionTol
      ⟨.empty, .empty⟩).1 = .ok ⟨0, .cylinder ⟨⟨0, 0, 0⟩, 4, 0, Real.pi / 2, 0, 1⟩⟩ := by
  have hfirst : lopsidedQuarter.start.dist lopsidedQuarter.center = 4 :=
    Point.dist_origin (by norm_num) (by norm_num)
  refine Operand.extrude_of_swept ?_ rfl ?_
  · rw [extrusionTol_eq]
    norm_num
  · rw [swept_eq (Curve.stored_of_ofEnds ofEnds_lopsidedQuarter), hfirst, smaller_eq_min,
      larger_eq_max, min_eq_right zero_le_one, max_eq_left zero_le_one]
    show (Cylinder.ofRanges ⟨0, 0, 0⟩ 4 0 (Real.pi / 2) 0 1).map Shape.cylinder = _
    rw [Cylinder.ofRanges_of_lt four_pos (by positivity) (by rw [extrusionTol_eq]; norm_num)]
    rfl

/-- The patch over the quarter is smaller than the quarter, within the tolerance. -/
theorem extrude_over_lopsidedQuarter :
    Curve.ofEnds ⟨0, 0, 0⟩ ⟨0, 4.0005, 0⟩ ⟨4, 0, 0⟩ true coincidentTol radiusTol
      = .ok (.arc lopsidedQuarter) ∧
    (Operand.extrude (some .keeping) (.segment (.curve (.arc lopsidedQuarter))) 1 0 extrusionTol
      ⟨.empty, .empty⟩).1 = .ok ⟨0, .cylinder ⟨⟨0, 0, 0⟩, 4, 0, Real.pi / 2, 0, 1⟩⟩ ∧
    (Operand.extrude (some .keeping) (.segment (.curve (.arc lopsidedQuarter))) 1 0 extrusionTol
      ⟨.empty, .empty⟩).2.registry.surfaces
        = [⟨0, .cylinder ⟨⟨0, 0, 0⟩, 4, 0, Real.pi / 2, 0, 1⟩⟩] ∧
    Cylinder.Over ⟨⟨0, 0, 0⟩, 4, 0, Real.pi / 2, 0, 1⟩ lopsidedQuarter 1 0 := by
  obtain ⟨hregistered, c, hc, hover⟩ := extrude_over ofEnds_lopsidedQuarter extrude_lopsidedQuarter
  cases hc
  exact ⟨ofEnds_lopsidedQuarter, extrude_lopsidedQuarter, hregistered, hover⟩

/-- **A clockwise arc whose ends differ in their radii is not extruded at the radius that it
stores.** -/
theorem extrude_loses_radius :
    Curve.ofEnds ⟨0, 0, 0⟩ ⟨0, 4.0005, 0⟩ ⟨4, 0, 0⟩ true coincidentTol radiusTol
      = .ok (.arc lopsidedQuarter) ∧
    (Operand.extrude (some .keeping) (.segment (.curve (.arc lopsidedQuarter))) 1 0 extrusionTol
      ⟨.empty, .empty⟩).1 = .ok ⟨0, .cylinder ⟨⟨0, 0, 0⟩, 4, 0, Real.pi / 2, 0, 1⟩⟩ ∧
    (4 : ℝ) ≠ lopsidedQuarter.radius := by
  refine ⟨ofEnds_lopsidedQuarter, extrude_lopsidedQuarter, ?_⟩
  norm_num [lopsidedQuarter]

end Arc

end Contour
