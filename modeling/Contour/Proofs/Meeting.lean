import Contour.Proofs.Coverage
import Contour.Proofs.LineCurve

/-!
# Where a line meets a curve

The discriminant decides between a contact, nothing, and two roots.  Outside the band of tangency
the kernel reports every common point of the line and the curve once, and no other point.

* `Line.discriminant` — the number that decides.
* `Curve.select_perm` — of the points on the circle those are kept that the curve covers.
* `Line.mem_pointsAt_iff`, `Line.gap_ne_zero` — the points at the roots are the common points, and
  without roots there are none.
* `Line.meeting_points` — what is reported of a line and a curve, in either order.
-/

namespace Contour

/-- The points that are reported of those on the circle are the ones that the curve covers, in some
order. -/
lemma Curve.select_perm {c : Curve ℝ} (hc : c.support.Proper) (points : List (Point ℝ)) (tol : ℝ) :
    ∃ selected, c.select points tol = .ok selected ∧
      selected.Perm (points.filter (c.reaches tol)) := by
  cases c with
  | arc a =>
      have hcovers : ∀ p, a.covers p tol = .ok ((arc a).reaches tol p) := fun p => covers_eq hc p
      simp only [select, filterM_ok hcovers]
      exact ⟨_, rfl, ordered_perm _ _⟩
  | circle k =>
      have hall : points.filter ((circle k).reaches tol) = points :=
        List.filter_eq_self.mpr fun _ _ => rfl
      refine ⟨_, rfl, ?_⟩
      rw [hall]
      exact ordered_perm _ _

namespace Line

variable {l : Line ℝ} {c : Curve ℝ} {tol : ℝ}

/-- The discriminant of the quadratic that is formed for a line and a curve. -/
noncomputable def discriminant (l : Line ℝ) (c : Curve ℝ) : ℝ :=
  (Quadratic.ofLine l c.center c.radius).discriminant

/-- A negative discriminant leaves no point of the straight line on the circle. -/
lemma gap_ne_zero (h : l.Proper tol) {center : Point ℝ} {radius : ℝ}
    (hD : l.chordMeasure center radius < 0) (t : ℝ) : l.gap center radius t ≠ 0 := by
  intro hzero
  have hsquare := discrim_eq_sq_of_quadratic_eq_zero hzero
  rw [discrim_gap h] at hsquare
  exact absurd hD (not_lt.mpr (hsquare ▸ sq_nonneg _))

lemma lerp_injective (h : l.Proper tol) (htol : 0 ≤ tol) :
    Function.Injective (l.stop.lerp l.start) := by
  intro s t heq
  simp only [Point.lerp, Point.mk.injEq, add_right_inj] at heq
  obtain ⟨hx, hy, -⟩ := heq
  refine mul_right_cancel₀ (lead_pos h htol).ne' ?_
  rw [lead]
  linear_combination (l.start.x - l.stop.x) * hx + (l.start.y - l.stop.y) * hy

/-- **The points at the roots are the common points of a line and a circle.** -/
lemma mem_pointsAt_iff (h : l.Proper tol) (htol : 0 ≤ tol) {k : Circle ℝ} (hk : k.Proper)
    (hD : 0 ≤ l.chordMeasure k.center k.radius) (p : Point ℝ) :
    p ∈ l.pointsAt [l.highRoot k.center k.radius, l.lowRoot k.center k.radius] ↔
      p ∈ l.trace ∧ p ∈ k.outline := by
  have hzero := gap_eq_zero_iff h htol hD
  simp only [pointsAt, List.mem_map, List.mem_filter, List.mem_cons, List.not_mem_nil, or_false,
    Bool.and_eq_true, decide_eq_true_eq]
  constructor
  · rintro ⟨t, ⟨hroot, h0, h1⟩, rfl⟩
    exact ⟨⟨t, h0, h1, rfl⟩, (mem_outline_lerp h hk t).mpr ((hzero t).mpr hroot.symm)⟩
  · rintro ⟨⟨t, h0, h1, rfl⟩, hout⟩
    exact ⟨t, ⟨((hzero t).mp ((mem_outline_lerp h hk t).mp hout)).symm, h0, h1⟩, rfl⟩

lemma nodup_pointsAt (h : l.Proper tol) (htol : 0 ≤ tol) {center : Point ℝ} {radius : ℝ}
    (hD : 0 < l.chordMeasure center radius) :
    (l.pointsAt [l.highRoot center radius, l.lowRoot center radius]).Nodup := by
  have hne := (lowRoot_lt_highRoot h htol hD).ne'
  have hroots : [l.highRoot center radius, l.lowRoot center radius].Nodup := by simp [hne]
  exact (hroots.filter _).map (lerp_injective h htol)

lemma discriminant_eq_chordMeasure (h : l.Proper tol) (c : Curve ℝ) :
    l.discriminant c = l.chordMeasure c.center c.radius := discriminant_eq h _ _

/-- A negative discriminant leaves no point of the straight line on the circle. -/
lemma lerp_not_mem_outline (h : l.Proper tol) (hc : c.support.Proper) (hD : l.discriminant c < 0)
    (t : ℝ) : l.stop.lerp l.start t ∉ c.support.outline := by
  rw [discriminant_eq_chordMeasure h] at hD
  exact fun hmem => gap_ne_zero h hD t ((mem_outline_lerp h hc t).mp hmem)

lemma intersectCurve_of_band (h : l.Proper tol) (htol : 0 ≤ tol) (slack : ℝ) {radiusTol : ℝ}
    (hband : |l.discriminant c| < radiusTol) :
    l.intersectCurve c slack radiusTol = .ok (.flagged .tangent) := by
  rw [discriminant_eq_chordMeasure h] at hband
  rw [intersectCurve_eq h htol, if_pos hband]

/-- Outside the band of tangency every common point is found once, and nothing else. -/
lemma intersectCurve_of_not_band (hl : (Segment.line l).Made) (hc : (Segment.curve c).Made)
    (slack : ℝ) {radiusTol : ℝ} (hpos : 0 < radiusTol) (hband : radiusTol ≤ |l.discriminant c|) :
    ∃ points, l.intersectCurve c slack radiusTol = .ok (.crossing points) ∧ points.Nodup ∧
      ∀ p, p ∈ points ↔ p ∈ l.trace ∧ p ∈ c.support.outline ∧ c.Spans slack p := by
  have h := hl.line
  have hk : c.support.Proper := hc.support
  have hnone := lerp_not_mem_outline h hk
  rw [discriminant_eq_chordMeasure h] at hband hnone
  rw [intersectCurve_eq h le_rfl, if_neg (not_lt.mpr hband)]
  by_cases hneg : l.chordMeasure c.center c.radius < 0
  · rw [if_pos hneg]
    refine ⟨[], rfl, List.nodup_nil, fun p => iff_of_false List.not_mem_nil ?_⟩
    rintro ⟨⟨t, -, -, rfl⟩, hout, -⟩
    exact hnone hneg t hout
  · rw [if_neg hneg]
    rw [not_lt] at hneg
    have hD : 0 < l.chordMeasure c.center c.radius :=
      hpos.trans_le (hband.trans_eq (abs_of_nonneg hneg))
    obtain ⟨selected, hselected, hperm⟩ := Curve.select_perm hk
      (l.pointsAt [l.highRoot c.center c.radius, l.lowRoot c.center c.radius]) slack
    rw [hselected]
    refine ⟨selected, rfl, hperm.nodup_iff.mpr ((nodup_pointsAt h le_rfl hD).filter _),
      fun p => ?_⟩
    rw [hperm.mem_iff, List.mem_filter, Curve.reaches_iff hc, ← and_assoc]
    exact and_congr_left fun _ => mem_pointsAt_iff h le_rfl hk hneg p

/-- **A line and a curve outside the band of tangency.**  A contact is reported, without a point, iff
the discriminant is closer to zero than the tolerance.  Otherwise the points reported are those of
the line that lie on the circle in a direction that the curve spans, each once; and if the
discriminant is negative, no point of the whole straight line lies on the circle.  The order of the
two does not matter. -/
theorem meeting_points (hl : (Segment.line l).Made) (hc : (Segment.curve c).Made) (tol : ℝ)
    {radiusTol : ℝ} (hpos : 0 < radiusTol) :
    ∃ r, (Segment.line l).intersect (.curve c) tol radiusTol = .ok r ∧
      (Segment.curve c).intersect (.line l) tol radiusTol = .ok r ∧
      (r.flag = .tangent ↔ |l.discriminant c| < radiusTol) ∧
      (|l.discriminant c| < radiusTol → r.points = []) ∧
      (radiusTol ≤ |l.discriminant c| → r.flag = .plain ∧ r.points.Nodup ∧
        ∀ p, p ∈ r.points ↔ p ∈ l.trace ∧ p ∈ c.support.outline ∧ c.Spans tol p) ∧
      (l.discriminant c ≤ -radiusTol → ∀ t, l.stop.lerp l.start t ∉ c.support.outline) := by
  have hbeyond : l.discriminant c ≤ -radiusTol → ∀ t, l.stop.lerp l.start t ∉ c.support.outline :=
    fun hD => lerp_not_mem_outline hl.line hc.support (by linarith)
  rcases lt_or_ge |l.discriminant c| radiusTol with hband | hband
  · have hr := intersectCurve_of_band hl.line le_rfl tol hband
    exact ⟨_, hr, hr, iff_of_true rfl hband, fun _ => rfl, fun h => absurd hband (not_lt.mpr h),
      hbeyond⟩
  · obtain ⟨points, hr, hnodup, hmem⟩ := intersectCurve_of_not_band hl hc tol hpos hband
    exact ⟨_, hr, hr, iff_of_false (by simp [Intersection.crossing]) (not_lt.mpr hband),
      fun h => absurd hband (not_le.mpr h), fun _ => ⟨rfl, hnodup, hmem⟩, hbeyond⟩

/-- The upper half of the circle of radius five about the origin. -/
noncomputable def upperHalf : Arc ℝ := .aboutOrigin ⟨5, 0, 0⟩ ⟨-5, 0, 0⟩

lemma built_upperHalf : (Segment.curve (.arc upperHalf)).Built := by
  refine Arc.built_aboutOrigin 5 ?_ (by norm_num) (by norm_num) (.inl ?_)
  · rw [coincidentTol_eq]; norm_num
  · rw [coincidentTol_eq]; norm_num

lemma made_upperHalf : (Segment.curve (.arc upperHalf)).Made := built_upperHalf.made

lemma upperHalf_radius : upperHalf.radius = 5 := Point.dist_origin (by norm_num) (by norm_num)

lemma upperHalf_angles : upperHalf.startAngle = 0 ∧ upperHalf.endAngle = Real.pi := by
  have hstart : (⟨5, 0, 0⟩ : Point ℝ).angleXY ⟨0, 0, 0⟩ = 0 := Point.angleXY_right (by norm_num)
  have hstop : (⟨-5, 0, 0⟩ : Point ℝ).angleXY ⟨0, 0, 0⟩ = Real.pi :=
    Point.angleXY_left (by norm_num)
  refine ⟨hstart, ?_⟩
  show Angle.unwrapAfter ((⟨-5, 0, 0⟩ : Point ℝ).angleXY ⟨0, 0, 0⟩) (Point.angleXY _ _) = _
  rw [hstart, hstop, Angle.unwrapAfter_of_le Real.pi_pos.le]

/-- The upper half spans the direction of every point above the center. -/
lemma upperHalf_spans {p : Point ℝ} (hp : 0 ≤ p.y) :
    (Curve.arc upperHalf).Spans coincidentTol p := by
  obtain ⟨hstart, hstop⟩ := upperHalf_angles
  have hslack : 0 ≤ coincidentTol / upperHalf.radius :=
    div_nonneg coincidentTol_pos.le made_upperHalf.arc.radius_pos.le
  have hlow : 0 ≤ p.angleXY upperHalf.center :=
    Complex.arg_nonneg_iff.mpr (by simpa [upperHalf, Arc.aboutOrigin] using hp)
  have hhigh : p.angleXY upperHalf.center ≤ Real.pi := Complex.arg_le_pi _
  refine ⟨0, ?_, ?_⟩
  · rw [hstart]; push_cast; linarith
  · rw [hstop]; push_cast; linarith

/-- The upper half and a level line three above its center meet in two points. -/
theorem meeting_points_upper_half :
    (Segment.line ⟨⟨-10, 3, 0⟩, ⟨10, 3, 0⟩⟩).Made ∧ (Segment.curve (.arc upperHalf)).Made ∧
      0 < (radiusTol : ℝ) ∧
      ∃ r, (Segment.line ⟨⟨-10, 3, 0⟩, ⟨10, 3, 0⟩⟩).intersect (.curve (.arc upperHalf))
          coincidentTol radiusTol = .ok r ∧
        r.flag = .plain ∧ ⟨4, 3, 0⟩ ∈ r.points ∧ ⟨-4, 3, 0⟩ ∈ r.points := by
  have hl : (Segment.line ⟨⟨-10, 3, 0⟩, ⟨10, 3, 0⟩⟩).Made :=
    .ofLine coincidentTol_pos.le (Line.ofEnds_of_lt rfl rfl (.inl (by
      rw [coincidentTol_eq]; norm_num [abs_of_nonpos])))
  have hradius : upperHalf.radius = 5 := Point.dist_origin (by norm_num) (by norm_num)
  have hmem : ∀ x, x = 4 ∨ x = -4 →
      (⟨x, 3, 0⟩ : Point ℝ) ∈ (Curve.arc upperHalf).support.outline := by
    rintro x (rfl | rfl)
    · exact ⟨rfl, (Point.dist_origin (by norm_num) (by norm_num)).trans hradius.symm⟩
    · exact ⟨rfl, (Point.dist_origin (by norm_num) (by norm_num)).trans hradius.symm⟩
  have hD : discriminant ⟨⟨-10, 3, 0⟩, ⟨10, 3, 0⟩⟩ (.arc upperHalf) = 25600 := by
    rw [discriminant_eq_chordMeasure hl.line, chordMeasure, mul_pow, ← lead_eq_dist_sq hl.line,
      show (Curve.arc upperHalf).radius = 5 from hradius]
    norm_num [Curve.center, lead, upperHalf, Arc.aboutOrigin, Point.crossXY, Point.sub]
  have hband : radiusTol ≤ |discriminant ⟨⟨-10, 3, 0⟩, ⟨10, 3, 0⟩⟩ (.arc upperHalf)| := by
    rw [hD, radiusTol_eq]
    norm_num [abs_of_nonneg]
  obtain ⟨r, hr, -, -, -, hpoints, -⟩ := meeting_points hl made_upperHalf coincidentTol radiusTol_pos
  obtain ⟨hflag, -, hiff⟩ := hpoints hband
  refine ⟨hl, made_upperHalf, radiusTol_pos, r, hr, hflag, ?_, ?_⟩
  · refine (hiff _).mpr ⟨⟨3 / 10, by norm_num, by norm_num, ?_⟩, hmem 4 (.inl rfl),
      upperHalf_spans (by norm_num)⟩
    simp only [Point.lerp, Point.mk.injEq]
    norm_num
  · refine (hiff _).mpr ⟨⟨7 / 10, by norm_num, by norm_num, ?_⟩, hmem (-4) (.inr rfl),
      upperHalf_spans (by norm_num)⟩
    simp only [Point.lerp, Point.mk.injEq]
    norm_num

end Line

end Contour
