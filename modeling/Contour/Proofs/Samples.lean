import Contour.Proofs.Boxes

/-!
# Samples of a curve

A curve accepts a point by two measures: how far it is from the center, taken in space, and in which
direction, taken in the plane.  For points of the plane they say together that a sample of the curve is
near.  Above the plane they do not: straight above its center a circle accepts a point that is as high
as the circle is wide.

* `Segment.samples` — the points of a segment at its parameters; `Curve.mem_samples_iff` finds them by
  their angles.
* `Point.dist_around_eq` — the distance of a point from a point of a circle, by height, radius and
  direction.
* `Curve.exists_sample_iff` — whether a sample is within a distance: the one in the same direction, if
  there is one, or an end.
* `Curve.contains_near_sample` — how near a sample is to a point that a curve accepts.
-/

namespace Contour

open Real (pi)

/-- The points of a segment at the parameters from zero to one. -/
def Segment.samples (s : Segment ℝ) : Set (Point ℝ) := {p | ∃ u, 0 ≤ u ∧ u ≤ 1 ∧ s.sample u = .ok p}

/-! ## Distance from a point of a circle -/

namespace Point

variable {p center : Point ℝ}

/-- The distance of a point from a point of a circle comes from three differences: in height, in the
distance from the axis, and in direction. -/
lemma dist_around_eq (hcenter : center.z = 0) (p : Point ℝ) (radius θ : ℝ) :
    p.dist (center.around radius θ) ^ 2 = p.z ^ 2 + ((p.withZ 0).dist center - radius) ^ 2
      + 2 * ((p.withZ 0).dist center * radius) * (1 - Real.cos (θ - p.angleXY center)) := by
  have haround : center.around ((p.withZ 0).dist center) ((p.withZ 0).angleXY center) = p.withZ 0 :=
    around_angleXY hcenter.symm
  have hx := congrArg Point.x haround
  have hy := congrArg Point.y haround
  change center.x + _ * Real.cos (p.angleXY center) = p.x at hx
  change center.y + _ * Real.sin (p.angleXY center) = p.y at hy
  have hθ := Real.sin_sq_add_cos_sq θ
  have hangle := Real.sin_sq_add_cos_sq (p.angleXY center)
  rw [dist_sq, Real.cos_sub, ← hx, ← hy]
  simp only [around, hcenter]
  linear_combination radius ^ 2 * hθ + (p.withZ 0).dist center ^ 2 * hangle

/-- A point is no further from the point of a circle in its own direction than its height makes it, if
its distance from the center is nearly the radius. -/
lemma dist_around_angleXY_le (hcenter : center.z = 0) {radius tol : ℝ}
    (hnear : |p.dist center - radius| ≤ tol) :
    p.dist (center.around radius (p.angleXY center)) ≤ tol + √2 * |p.z| := by
  -- the foot of the point on the plane is nearer to the axis by the height at most
  have hfoot : |(p.withZ 0).dist center - p.dist center| ≤ |p.z| := by
    have hheight : p.dist (p.withZ 0) = |p.z| := by
      rw [dist_eq_iff (abs_nonneg _), sq_abs]
      simp [withZ]
    have hto := Point.dist_triangle p (p.withZ 0) center
    have hback := Point.dist_triangle (p.withZ 0) p center
    rw [Point.dist_comm (p.withZ 0) p] at hback
    rw [abs_le]
    constructor <;> linarith
  have hlevel : p.dist (center.around (p.dist center) (p.angleXY center)) ≤ √2 * |p.z| := by
    refine le_of_sq_le_sq ?_ (by positivity)
    rw [dist_around_eq hcenter, sub_self, Real.cos_zero, sub_self, mul_zero, add_zero, mul_pow,
      Real.sq_sqrt zero_le_two, sq_abs]
    linarith [sq_le_sq.mpr ((abs_abs p.z).symm ▸ hfoot), sq_abs p.z]
  calc p.dist (center.around radius (p.angleXY center))
      ≤ p.dist (center.around (p.dist center) (p.angleXY center))
        + (center.around (p.dist center) (p.angleXY center)).dist
          (center.around radius (p.angleXY center)) := Point.dist_triangle _ _ _
    _ ≤ √2 * |p.z| + tol := by
        rw [dist_around_radius]
        exact add_le_add hlevel hnear
    _ = tol + √2 * |p.z| := add_comm _ _

end Point

/-! ## Samples -/

namespace Curve

variable {c : Curve ℝ} {p q : Point ℝ} {θ tol : ℝ}

/-- The parameter of an angle of a curve. -/
noncomputable def paramOf (c : Curve ℝ) (θ : ℝ) : ℝ := (θ - c.startAngle) / (c.endAngle - c.startAngle)

lemma paramOf_mem (hlow : c.startAngle ≤ θ) (hhigh : θ ≤ c.endAngle) :
    0 ≤ c.paramOf θ ∧ c.paramOf θ ≤ 1 :=
  ⟨div_nonneg (sub_nonneg.mpr hlow) (sub_nonneg.mpr (hlow.trans hhigh)),
    div_le_one_of_le₀ (sub_le_sub_right hhigh _) (sub_nonneg.mpr (hlow.trans hhigh))⟩

lemma paramOf_mono (hle : c.startAngle ≤ c.endAngle) : Monotone c.paramOf := fun _ _ h =>
  div_le_div_of_nonneg_right (sub_le_sub_right h _) (sub_nonneg.mpr hle)

/-- The sample at the parameter of an angle is the point of the circle there. -/
lemma sample_paramOf (hlow : c.startAngle ≤ θ) (hhigh : θ ≤ c.endAngle) :
    (Segment.curve c).sample (c.paramOf θ) = .ok (c.center.around c.radius θ) := by
  have hparam := div_mul_cancel_of_imp (a := θ - c.startAngle) (b := c.endAngle - c.startAngle)
    fun hzero => by linarith
  simp only [Segment.sample, paramOf, Point.polar_eq, hparam, add_sub_cancel]

/-- The samples of a curve are the points of its circle from its first angle to its last. -/
lemma mem_samples_iff (hle : c.startAngle ≤ c.endAngle) : q ∈ (Segment.curve c).samples ↔
    ∃ θ, c.startAngle ≤ θ ∧ θ ≤ c.endAngle ∧ c.center.around c.radius θ = q := by
  constructor
  · rintro ⟨u, h0, h1, hu⟩
    obtain ⟨hlow, hhigh⟩ := lerp_mem_Icc (Set.left_mem_Icc.mpr hle) (Set.right_mem_Icc.mpr hle) h0 h1
    exact ⟨_, hlow, hhigh, Except.ok.inj hu⟩
  · rintro ⟨θ, hlow, hhigh, rfl⟩
    obtain ⟨h0, h1⟩ := paramOf_mem hlow hhigh
    exact ⟨_, h0, h1, sample_paramOf hlow hhigh⟩

/-- Some whole number of turns brings the direction of a point between the angles of a curve that spans
it; on a circle, none or one. -/
lemma spans_zero_iff : c.Spans 0 p ↔ ∃ n : ℤ, c.startAngle ≤ p.angleXY c.center + n * (2 * pi) ∧
    p.angleXY c.center + n * (2 * pi) ≤ c.endAngle := by
  cases c with
  | arc a => simp only [Spans, zero_div, sub_zero, add_zero, startAngle, endAngle, center]
  | circle k =>
      refine iff_of_true trivial ?_
      change ∃ n : ℤ, 0 ≤ p.angleXY k.center + n * (2 * pi) ∧ p.angleXY k.center + n * (2 * pi) ≤ 2 * pi
      have hlow : -pi < p.angleXY k.center := Complex.neg_pi_lt_arg _
      have hhigh : p.angleXY k.center ≤ pi := Complex.arg_le_pi _
      rcases le_or_gt 0 (p.angleXY k.center) with hpos | hneg
      · exact ⟨0, by push_cast; linarith, by push_cast; linarith [turn_pos]⟩
      · exact ⟨1, by push_cast; linarith, by push_cast; linarith⟩

/-- **Whether a sample is within a distance of a point.**  On the curve, the nearest sample is in the
direction of the point if the curve goes there, and an end of the curve otherwise. -/
lemma exists_sample_iff (hplanar : c.center.z = 0) (hradius : 0 ≤ c.radius)
    (hle : c.startAngle ≤ c.endAngle) {ε : ℝ} (hε : 0 ≤ ε) :
    (∃ q ∈ (Segment.curve c).samples, p.dist q ≤ ε) ↔
      (c.Spans 0 p ∧ p.z ^ 2 + ((p.withZ 0).dist c.center - c.radius) ^ 2 ≤ ε ^ 2) ∨
      p.dist (c.center.around c.radius c.startAngle) ≤ ε ∨
      p.dist (c.center.around c.radius c.endAngle) ≤ ε := by
  have hdist := Point.dist_around_eq hplanar p c.radius
  have hweight : 0 ≤ (p.withZ 0).dist c.center * c.radius :=
    mul_nonneg (Point.dist_nonneg _ _) hradius
  simp only [mem_samples_iff hle]
  constructor
  · rintro ⟨_, ⟨θ, hlow, hhigh, rfl⟩, hnear⟩
    -- among the angles of the curve, that of the nearest sample has the greatest cosine
    obtain ⟨φ, hφ, hcritical, hmax⟩ := exists_max_of_hasDerivAt hle fun φ =>
      (Real.hasDerivAt_cos (φ - p.angleXY c.center)).comp_sub_const φ (p.angleXY c.center)
    have hnearer : ∀ {x y}, Real.cos (x - p.angleXY c.center) ≤ Real.cos (y - p.angleXY c.center) →
        p.dist (c.center.around c.radius y) ≤ p.dist (c.center.around c.radius x) := by
      intro x y hcos
      refine le_of_sq_le_sq ?_ (Point.dist_nonneg _ _)
      rw [hdist, hdist]
      linarith [mul_le_mul_of_nonneg_left hcos hweight]
    have hφnear := (hnearer (hmax θ ⟨hlow, hhigh⟩)).trans hnear
    rcases hcritical with rfl | rfl | hlevel
    · exact .inr (.inl hφnear)
    · exact .inr (.inr hφnear)
    · rcases Real.sin_eq_zero_iff_cos_eq.mp (neg_eq_zero.mp hlevel) with hone | hopposite
      · obtain ⟨n, hn⟩ := (Real.cos_eq_one_iff _).mp hone
        refine .inl ⟨spans_zero_iff.mpr ⟨n, ?_, ?_⟩, ?_⟩
        · linarith [hφ.1]
        · linarith [hφ.2]
        · have hsq := pow_le_pow_left₀ (Point.dist_nonneg _ _) hφnear 2
          rwa [hdist, hone, sub_self, mul_zero, add_zero] at hsq
      · -- every sample is as far as it can be
        refine .inr (.inl ((hnearer ?_).trans hφnear))
        exact hopposite.trans_le (Real.neg_one_le_cos _)
  · rintro (⟨hspans, hclose⟩ | hfirst | hlast)
    · obtain ⟨n, hlow, hhigh⟩ := spans_zero_iff.mp hspans
      refine ⟨_, ⟨_, hlow, hhigh, rfl⟩, le_of_sq_le_sq ?_ hε⟩
      rw [Point.around_add_turns, hdist, sub_self, Real.cos_zero, sub_self, mul_zero, add_zero]
      exact hclose
    · exact ⟨_, ⟨_, le_rfl, hle, rfl⟩, hfirst⟩
    · exact ⟨_, ⟨_, hle, le_rfl, rfl⟩, hlast⟩

/-! ## What acceptance says -/

lemma start_le_end (hc : (Segment.curve c).Made) : c.startAngle ≤ c.endAngle := by
  cases c with
  | arc a => exact hc.arc.start_le_end
  | circle k => exact turn_pos.le

/-- A direction that a curve covers up to a slack is near the angle of one of its samples. -/
lemma exists_sample_of_spans (hc : (Segment.curve c).Made) (htol : 0 ≤ tol) (hspans : c.Spans tol p) :
    ∃ q ∈ (Segment.curve c).samples,
      (c.center.around c.radius (p.angleXY c.center)).dist q ≤ tol := by
  have hradius : 0 < c.radius := hc.support.radius_pos
  have hle := start_le_end hc
  obtain ⟨n, θ, hlow, hhigh, hclose⟩ : ∃ (n : ℤ) (θ : ℝ), c.startAngle ≤ θ ∧ θ ≤ c.endAngle ∧
      |p.angleXY c.center + n * (2 * pi) - θ| ≤ tol / c.radius := by
    have hslack := div_nonneg htol hradius.le
    cases c with
    | arc a =>
        obtain ⟨n, hlow, hhigh⟩ := hspans
        exact ⟨n, exists_mem_of_widened hle hslack hlow hhigh⟩
    | circle k =>
        obtain ⟨n, hlow, hhigh⟩ := spans_zero_iff.mp (show (circle k).Spans 0 p from trivial)
        exact ⟨n, _, hlow, hhigh, by rwa [sub_self, abs_zero]⟩
  refine ⟨_, (mem_samples_iff hle).mpr ⟨θ, hlow, hhigh, rfl⟩, ?_⟩
  rw [← Point.around_add_turns _ _ _ n]
  exact (Point.dist_around_le _ hradius.le _ _).trans ((le_div_iff₀' hradius).mp hclose)

/-- **How near a sample is to a point that a curve accepts.**  Every test has a result.  Where it
accepts a point, some sample is within two tolerances and what the height of the point adds, which for
points of the plane is nothing.  Some sample is within two tolerances alone exactly if the point is near
the sample in its own direction, once its height counts, or near an end. -/
theorem contains_near_sample (hc : (Segment.curve c).Made) (htol : 0 ≤ tol) (p : Point ℝ) :
    ∃ accepted, (Segment.curve c).contains p tol = .ok accepted ∧ (accepted = true →
      (∃ q ∈ (Segment.curve c).samples, p.dist q ≤ 2 * tol + √2 * |p.z|) ∧
      ((∃ q ∈ (Segment.curve c).samples, p.dist q ≤ 2 * tol) ↔
        (c.Spans 0 p ∧ p.z ^ 2 + ((p.withZ 0).dist c.center - c.radius) ^ 2 ≤ (2 * tol) ^ 2) ∨
        p.dist (c.center.around c.radius c.startAngle) ≤ 2 * tol ∨
        p.dist (c.center.around c.radius c.endAngle) ≤ 2 * tol)) := by
  have hplanar : c.center.z = 0 := hc.support.planar
  have hradius : 0 ≤ c.radius := hc.support.radius_pos.le
  obtain ⟨accepted, heq, hiff⟩ := contains_eq hc p tol
  refine ⟨accepted, heq, fun haccepted => ⟨?_, ?_⟩⟩
  · obtain ⟨hnear, hspans⟩ := hiff.mp haccepted
    obtain ⟨q, hq, hdirection⟩ := exists_sample_of_spans hc htol hspans
    refine ⟨q, hq, ?_⟩
    calc p.dist q
        ≤ p.dist (c.center.around c.radius (p.angleXY c.center))
          + (c.center.around c.radius (p.angleXY c.center)).dist q := Point.dist_triangle _ _ _
      _ ≤ (tol + √2 * |p.z|) + tol :=
          add_le_add (Point.dist_around_angleXY_le hplanar hnear) hdirection
      _ = 2 * tol + √2 * |p.z| := by ring
  · exact exists_sample_iff hplanar hradius (start_le_end hc) (mul_nonneg zero_le_two htol)

/-- The upper half of a circle accepts a point just above its top. -/
theorem contains_near_sample_above_top :
    (Segment.curve (.arc Line.upperHalf)).Made ∧ (0 : ℝ) ≤ radiusTol ∧
      (Segment.curve (.arc Line.upperHalf)).contains ⟨0, 5, radiusTol⟩ radiusTol = .ok true ∧
      ∃ q ∈ (Segment.curve (.arc Line.upperHalf)).samples,
        (⟨0, 5, radiusTol⟩ : Point ℝ).dist q ≤ 2 * radiusTol := by
  have hradius : Line.upperHalf.radius = 5 := Point.dist_origin (by norm_num) (by norm_num)
  have htop : (⟨0, 5, 0⟩ : Point ℝ).dist ⟨0, 0, 0⟩ = 5 := Point.dist_origin (by norm_num) (by norm_num)
  have habove : (⟨0, 5, radiusTol⟩ : Point ℝ).dist ⟨0, 0, 0⟩ ^ 2 = 25 + radiusTol ^ 2 := by
    rw [Point.dist_sq]
    ring
  obtain ⟨accepted, hcontains, hiff⟩ :=
    contains_eq Line.made_upperHalf (⟨0, 5, radiusTol⟩ : Point ℝ) radiusTol
  obtain ⟨accepted', hcontains', hnear⟩ :=
    contains_near_sample Line.made_upperHalf radiusTol_pos.le (⟨0, 5, radiusTol⟩ : Point ℝ)
  cases hcontains.symm.trans hcontains'
  have hspans : (Curve.arc Line.upperHalf).Spans 0 ⟨0, 5, radiusTol⟩ := by
    obtain ⟨hstart, hstop⟩ := Line.upperHalf_angles
    refine spans_zero_iff.mpr ⟨0, ?_, ?_⟩
    · rw [Int.cast_zero, zero_mul, add_zero]
      exact hstart.trans_le (Complex.arg_nonneg_iff.mpr (by
        norm_num [Curve.center, Line.upperHalf, Arc.aboutOrigin]))
    · rw [Int.cast_zero, zero_mul, add_zero]
      exact (Complex.arg_le_pi _).trans_eq hstop.symm
  have haccepted : accepted = true := by
    refine hiff.mpr ⟨?_, hspans.mono Line.made_upperHalf.support radiusTol_pos.le⟩
    change |(⟨0, 5, radiusTol⟩ : Point ℝ).dist ⟨0, 0, 0⟩ - Line.upperHalf.radius| ≤ _
    rw [radiusTol_eq] at habove ⊢
    rw [hradius, abs_le]
    constructor <;> nlinarith [Point.dist_nonneg (⟨0, 5, 1e-3⟩ : Point ℝ) ⟨0, 0, 0⟩]
  subst haccepted
  refine ⟨Line.made_upperHalf, radiusTol_pos.le, hcontains, ((hnear rfl).2).mpr (.inl ⟨hspans, ?_⟩)⟩
  change radiusTol ^ 2 + ((⟨0, 5, 0⟩ : Point ℝ).dist ⟨0, 0, 0⟩ - Line.upperHalf.radius) ^ 2 ≤ _
  rw [htop, hradius, radiusTol_eq]
  norm_num

/-- **A circle accepts the point straight above its center that is as high as its radius**, of which
no sample is near. -/
theorem contains_far_above :
    (Segment.curve (.circle (Line.aboutOrigin 5))).Built ∧
      (Segment.curve (.circle (Line.aboutOrigin 5))).contains ⟨0, 0, 5⟩ 0 = .ok true ∧
      ∀ q ∈ (Segment.curve (.circle (Line.aboutOrigin 5))).samples,
        ¬ (⟨0, 0, 5⟩ : Point ℝ).dist q ≤ 2 * 0 := by
  have hc : (Segment.curve (.circle (Line.aboutOrigin 5))).Built :=
    Line.built_aboutOrigin (by rw [coincidentTol_eq]; norm_num)
  have hheight : (⟨0, 0, 5⟩ : Point ℝ).dist ⟨0, 0, 0⟩ = 5 := by
    rw [Point.dist_eq_iff (by norm_num)]
    norm_num
  refine ⟨hc, (contains_iff hc.made).mpr ⟨?_, trivial⟩, ?_⟩
  · exact (abs_eq_zero.mpr (sub_eq_zero.mpr hheight)).le
  · rintro q hq hnear
    obtain ⟨θ, -, -, rfl⟩ := (mem_samples_iff (start_le_end hc.made)).mp hq
    have hplanar : (Line.aboutOrigin 5).center.z = 0 := rfl
    have hsq := Point.dist_around_eq hplanar ⟨0, 0, 5⟩ 5 θ
    have hfoot : (((⟨0, 0, 5⟩ : Point ℝ).withZ 0).dist (Line.aboutOrigin 5).center) = 0 :=
      Point.dist_self _
    rw [hfoot] at hsq
    have hzero := le_antisymm (hnear.trans_eq (mul_zero 2)) (Point.dist_nonneg _ _)
    change Point.dist _ (Point.around (Line.aboutOrigin 5).center 5 θ) = 0 at hzero
    rw [hzero] at hsq
    norm_num at hsq

end Curve

end Contour
