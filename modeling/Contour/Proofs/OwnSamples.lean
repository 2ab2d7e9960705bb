import Contour.Proofs.Samples

/-!
# Samples and acceptance

A line measures how far a point is from the nearest of its samples, whether this is an end or lies in
between.  Curves measure radius and direction apart, and the direction comes back from the arctangent
within half a turn of zero, while the angles of an arc go up to a turn and a half.  Three turns are
tried to make up for this, and this file says that no sample of any segment is lost.

* `Line.isLeast_dist_nearest` — the sample nearest to a point is at its shadow, moved between the ends.
* `Line.contains_iff_distance` — a line accepts a point iff its distance from the line is at most the
  tolerance.
* `Angle.inRange_of_mem` — an angle between two others is found from its direction without a slack.
* `Segment.Sound.contains_sample` — a sound segment accepts its samples under any tolerance.
* `Segment.contains_samples` — so does every segment that can be reached, and an arc starts and stops
  near the samples at its ends.
-/

namespace Contour

open Real (pi)

/-! ## The distance of a point from a line -/

namespace Line

variable {l : Line ℝ} {p : Point ℝ}

/-- The parameter of the sample nearest to a point: that of its shadow, moved between the ends. -/
noncomputable def nearest (l : Line ℝ) (p : Point ℝ) : ℝ := min (max (l.shadow p) 0) 1

lemma nearest_mem (l : Line ℝ) (p : Point ℝ) : 0 ≤ l.nearest p ∧ l.nearest p ≤ 1 :=
  ⟨le_min (le_max_right _ _) zero_le_one, min_le_right _ _⟩

/-- No parameter between the ends is nearer to the shadow. -/
lemma abs_shadow_sub_nearest_le {t : ℝ} (h0 : 0 ≤ t) (h1 : t ≤ 1) :
    |l.shadow p - l.nearest p| ≤ |l.shadow p - t| := by
  unfold nearest
  rcases le_total (l.shadow p) 0 with hbefore | hafter
  · rw [max_eq_right hbefore, min_eq_left zero_le_one, abs_of_nonpos (by linarith),
      abs_of_nonpos (by linarith)]
    linarith
  · rw [max_eq_left hafter]
    rcases le_total (l.shadow p) 1 with hinside | hbeyond
    · rw [min_eq_left hinside, sub_self, abs_zero]
      exact abs_nonneg _
    · rw [min_eq_right hbeyond, abs_of_nonneg (by linarith), abs_of_nonneg (by linarith)]
      linarith

/-- **The nearest sample of a line.** -/
lemma isLeast_dist_nearest (hmag : 0 < l.along.mag) (p : Point ℝ) :
    IsLeast (p.dist '' (Segment.line l).samples) (p.dist (l.point (l.nearest p))) := by
  obtain ⟨h0, h1⟩ := l.nearest_mem p
  constructor
  · exact ⟨_, ⟨_, h0, h1, rfl⟩, rfl⟩
  · rintro _ ⟨_, ⟨t, ht0, ht1, ht⟩, rfl⟩
    obtain rfl : l.point t = _ := Except.ok.inj ht
    exact dist_point_le_of_nearer hmag (abs_shadow_sub_nearest_le ht0 ht1)

lemma contains_ok (hmag : l.along.mag ≠ 0) (p : Point ℝ) (tol : ℝ) :
    ∃ accepted, l.contains p tol = .ok accepted := by
  change ∃ accepted, (quotient ((p.sub l.start).dot l.along) (l.along.dot l.along) >>= _) = _
  rw [quotient_shadow hmag]
  exact ⟨_, (apply_ite Except.ok _ _ _).symm⟩

/-- **A line measures distance exactly.**  A point of space, wherever it is, has a least distance from
the samples of a line, and the line accepts the point under just those tolerances that are no smaller. -/
theorem contains_iff_distance (hl : (Segment.line l).Made) (p : Point ℝ) :
    ∃ d, IsLeast (p.dist '' (Segment.line l).samples) d ∧
      ∀ tol, (Segment.line l).contains p tol = .ok (decide (d ≤ tol)) := by
  have hmag := hl.line.mag_pos le_rfl
  have hleast := isLeast_dist_nearest hmag p
  obtain ⟨h0, h1⟩ := l.nearest_mem p
  refine ⟨_, hleast, fun tol => ?_⟩
  have hiff : l.contains p tol = .ok true ↔ p.dist (l.point (l.nearest p)) ≤ tol := by
    rw [contains_iff_near hmag]
    constructor
    · rintro ⟨t, ht0, ht1, hnear⟩
      exact (hleast.2 ⟨_, ⟨t, ht0, ht1, rfl⟩, rfl⟩).trans hnear
    · exact fun hnear => ⟨_, h0, h1, hnear⟩
  obtain ⟨accepted, hcontains⟩ := contains_ok hmag.ne' p tol
  show l.contains p tol = _
  rw [hcontains, Except.ok.injEq] at hiff ⊢
  exact Bool.eq_iff_iff.mpr (hiff.trans decide_eq_true_iff.symm)

/-- A point beyond the end of a line and above the plane is as far from the line as from its end. -/
theorem contains_iff_distance_beyond :
    (Segment.line (between 0 0 4 0)).Made ∧
      (Segment.line (between 0 0 4 0)).contains ⟨6, 1, 2⟩ 3 = .ok true ∧
      (Segment.line (between 0 0 4 0)).contains ⟨6, 1, 2⟩ 2.9 = .ok false := by
  have hl : (Segment.line (between 0 0 4 0)).Made :=
    (built_between (.inl (by rw [coincidentTol_eq]; norm_num [abs_of_nonneg]))).made
  have hmag : (between 0 0 4 0).along.mag = 4 := by
    rw [mag_between]
    norm_num
  have hnearest : (between 0 0 4 0).nearest ⟨6, 1, 2⟩ = 1 := by
    rw [nearest, shadow, hmag]
    norm_num [between, along, Point.sub, Point.dot]
  have hthree : (⟨6, 1, 2⟩ : Point ℝ).dist ((between 0 0 4 0).point 1) = 3 := by
    rw [point_one, Point.dist_eq_iff (by norm_num)]
    norm_num [between]
  obtain ⟨d, hleast, hcontains⟩ := contains_iff_distance hl (⟨6, 1, 2⟩ : Point ℝ)
  have hd : d = 3 := by
    have hthree' := isLeast_dist_nearest (l := between 0 0 4 0) (by rw [hmag]; norm_num) ⟨6, 1, 2⟩
    rw [hnearest, hthree] at hthree'
    exact hleast.unique hthree'
  refine ⟨hl, ?_, ?_⟩
  · rw [hcontains, hd]
    norm_num
  · rw [hcontains, hd]
    norm_num

end Line

/-! ## Directions of samples -/

/-- **Three turns are enough for every sample.**  An angle between the angles of an arc is its
direction, or that a turn later or earlier. -/
lemma Angle.inRange_of_mem {angle start stop slack θ : ℝ} (hangle : -pi < angle ∧ angle ≤ pi)
    (hstart : -pi ≤ start) (hstop : stop ≤ 3 * pi) (hslack : 0 ≤ slack) (hlow : start ≤ θ)
    (hhigh : θ ≤ stop) (hturns : ∃ n : ℤ, θ = angle + n * (2 * pi)) :
    inRange angle start stop slack = true := by
  obtain ⟨n, rfl⟩ := hturns
  have hn : -2 < n ∧ n < 2 := by
    constructor <;> by_contra hfar
    · have hcast : (n : ℝ) ≤ (-2 : ℤ) := by exact_mod_cast not_lt.mp hfar
      have := mul_le_mul_of_nonneg_right hcast turn_pos.le
      push_cast at this
      linarith [Real.pi_pos]
    · have hcast : ((2 : ℤ) : ℝ) ≤ n := by exact_mod_cast not_lt.mp hfar
      have := mul_le_mul_of_nonneg_right hcast turn_pos.le
      push_cast at this
      linarith [Real.pi_pos]
  simp only [inRange, List.any_cons, List.any_nil, Bool.or_false, Bool.or_eq_true, Bool.and_eq_true,
    decide_eq_true_eq, turn_eq]
  obtain rfl | rfl | rfl : n = 0 ∨ n = 1 ∨ n = -1 := by omega
  all_goals push_cast at hlow hhigh
  · exact .inl ⟨by linarith, by linarith⟩
  · exact .inr (.inl ⟨by linarith, by linarith⟩)
  · exact .inr (.inr ⟨by linarith, by linarith⟩)

/-- A point that stands at an angle near a circle is near the point of the circle there. -/
lemma Circle.Stands.dist_around_le {c : Circle ℝ} (hc : c.Proper) {ε θ : ℝ} {p : Point ℝ}
    (h : c.Stands ε θ p) : (c.center.around c.radius θ).dist p ≤ ε := by
  obtain ⟨n, hn⟩ := h.direction
  have hp : c.center.around (p.dist c.center) θ = p := by
    rw [hn, Point.around_add_turns]
    exact Point.around_angleXY (h.planar.trans hc.planar.symm)
  calc (c.center.around c.radius θ).dist p
      = (c.center.around c.radius θ).dist (c.center.around (p.dist c.center) θ) := by rw [hp]
    _ = |p.dist c.center - c.radius| := by rw [Point.dist_around_radius, abs_sub_comm]
    _ ≤ ε := h.near

/-! ## Every segment accepts its samples -/

/-- A curve accepts a point of its circle if the test of directions finds it. -/
lemma Curve.contains_around {c : Curve ℝ} (hc : c.support.Proper) {θ tol : ℝ} (htol : 0 ≤ tol)
    (hreaches : c.reaches tol (c.center.around c.radius θ) = true) :
    c.contains (c.center.around c.radius θ) tol = .ok true := by
  have hnear : |(c.center.around c.radius θ).dist c.center - c.radius| ≤ tol :=
    (Circle.stands_around hc le_rfl θ).near.trans htol
  rw [contains, elementary_abs, if_neg (not_lt.mpr hnear), covers_eq hc, hreaches]

/-- The test of directions finds the points of a sound arc. -/
lemma Arc.Sound.reaches_around {a : Arc ℝ} (h : a.Sound) {θ tol : ℝ} (hlow : a.startAngle ≤ θ)
    (hhigh : θ ≤ a.endAngle) (htol : 0 ≤ tol) :
    (Curve.arc a).reaches tol (a.center.around a.radius θ) = true := by
  have hsweep := h.sweep_le
  rw [sweep] at hsweep
  exact Angle.inRange_of_mem ⟨Complex.neg_pi_lt_arg _, Complex.arg_le_pi _⟩ h.neg_pi_le
    (by linarith [h.le_pi]) (div_nonneg htol h.radius_pos.le) hlow hhigh
    (Circle.stands_around h.proper le_rfl θ).direction

namespace Segment

variable {s : Segment ℝ}

/-- **A sound segment accepts its samples**, whatever the tolerance. -/
lemma Sound.contains_sample (h : s.Sound) {u : ℝ} (h0 : 0 ≤ u) (h1 : u ≤ 1) :
    ∃ p, s.sample u = .ok p ∧ ∀ tol, 0 ≤ tol → s.contains p tol = .ok true := by
  rcases s with l | a | c
  · refine ⟨_, rfl, fun tol htol => (Line.contains_iff_near (Line.Sound.mag_pos h)).mpr ?_⟩
    exact ⟨u, h0, h1, (Point.dist_self _).trans_le htol⟩
  · have ha : a.Sound := h
    have hle : a.startAngle ≤ a.endAngle := sub_nonneg.mp ha.sweep_nonneg
    obtain ⟨hlow, hhigh⟩ := lerp_mem_Icc (Set.left_mem_Icc.mpr hle) (Set.right_mem_Icc.mpr hle) h0 h1
    exact ⟨_, rfl, fun tol htol =>
      Curve.contains_around ha.proper htol (ha.reaches_around hlow hhigh htol)⟩
  · have hc : (Curve.circle c).support.Proper := h
    exact ⟨_, rfl, fun tol htol => Curve.contains_around hc htol rfl⟩

/-- **Every segment that can be reached accepts its samples**, even under a tolerance of zero.  The
samples at the ends of an arc are near its end points, which may be a little off its circle. -/
theorem contains_samples (h : s.Reachable) :
    (∀ u, 0 ≤ u → u ≤ 1 →
      ∃ p, s.sample u = .ok p ∧ ∀ tol, 0 ≤ tol → s.contains p tol = .ok true) ∧
    ∀ a, s = .curve (.arc a) → ∃ p q, s.sample 0 = .ok p ∧ s.sample 1 = .ok q ∧
      p.dist a.start ≤ radiusTol ∧ q.dist a.stop ≤ radiusTol := by
  have hsound := h.sound
  refine ⟨fun u h0 h1 => hsound.contains_sample h0 h1, ?_⟩
  rintro a rfl
  have ha : a.Sound := hsound
  have hfirst : (Segment.curve (.arc a)).sample 0 = .ok (a.center.around a.radius a.startAngle) := by
    simp [sample, Point.polar_eq, Curve.center, Curve.radius, Curve.startAngle]
  have hlast : (Segment.curve (.arc a)).sample 1 = .ok (a.center.around a.radius a.endAngle) := by
    simp [sample, Point.polar_eq, Curve.center, Curve.radius, Curve.startAngle, Curve.endAngle]
  exact ⟨_, _, hfirst, hlast, ha.start_stands.dist_around_le ha.proper,
    ha.stop_stands.dist_around_le ha.proper⟩

/-- The upper half of a circle, drawn clockwise, accepts its top. -/
theorem contains_samples_upperHalf_reversed :
    Reachable (curve (.arc Line.upperHalf.reverse)) ∧
      contains (curve (.arc Line.upperHalf.reverse)) ⟨0, 5, 0⟩ 0 = .ok true ∧
      ∃ p, sample (curve (.arc Line.upperHalf.reverse)) 0 = .ok p ∧ p.dist ⟨5, 0, 0⟩ ≤ radiusTol := by
  have hreachable : Reachable (curve (.arc Line.upperHalf.reverse)) :=
    .reverse (.built Line.built_upperHalf)
  obtain ⟨hsamples, hends⟩ := contains_samples hreachable
  obtain ⟨hstart, hstop⟩ := Line.upperHalf_angles
  obtain ⟨p, hp, hcontains⟩ := hsamples (1 / 2) (by norm_num) (by norm_num)
  have htop : p = ⟨0, 5, 0⟩ := by
    have hangle : (0 : ℝ) + 1 / 2 * (pi - 0) = pi / 2 := by ring
    simp only [sample, Curve.center, Curve.radius, Curve.startAngle, Curve.endAngle, Arc.reverse,
      hstart, hstop, Line.upperHalf_radius, hangle, Point.polar_eq] at hp
    rw [← Except.ok.inj hp]
    simp [Point.around, Line.upperHalf, Arc.aboutOrigin]
  obtain ⟨q, -, hq, -, hnear, -⟩ := hends _ rfl
  exact ⟨hreachable, htop ▸ hcontains 0 le_rfl, q, hq, hnear⟩

end Segment

end Contour
