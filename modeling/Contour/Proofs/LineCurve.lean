import Contour.Proofs.Circles

/-!
# A line and a curve, exactly

The parameters at which a line meets a circle are the roots of a quadratic.  Over `ℝ` the wide type
is `ℝ`, so its coefficients, its discriminant and its roots are real numbers.

* `Line.trace` — a line as a set of points.
* `Line.gap` — the quadratic itself: the squared distance from the center less the squared radius.
* `Line.chordMeasure` — what the discriminant measures.
* `Line.intersectCurve_eq` — the intersection of a line and a curve in terms of these.
* `Line.crossing_found` — a line from inside a circle to outside it meets the circle in one point,
  which is reported unless the discriminant is in the band of tangency.
-/

namespace Contour

namespace Line

variable {l : Line ℝ} {tol : ℝ}

/-- The points of a line. -/
def trace (l : Line ℝ) : Set (Point ℝ) := {p | ∃ t, 0 ≤ t ∧ t ≤ 1 ∧ p = l.stop.lerp l.start t}

/-! ## The quadratic -/

/-- The coefficient of the square: the squared length of the line. -/
noncomputable def lead (l : Line ℝ) : ℝ :=
  (l.start.x - l.stop.x) * (l.start.x - l.stop.x) + (l.start.y - l.stop.y) * (l.start.y - l.stop.y)

noncomputable def slope (l : Line ℝ) (center : Point ℝ) : ℝ :=
  2 * ((l.start.x - l.stop.x) * (l.stop.x - center.x)
    + (l.start.y - l.stop.y) * (l.stop.y - center.y))

/-- The squared distance from the center less the squared radius, at the end of the line. -/
noncomputable def gapAtStop (l : Line ℝ) (center : Point ℝ) (radius : ℝ) : ℝ :=
  (l.stop.x - center.x) * (l.stop.x - center.x) + (l.stop.y - center.y) * (l.stop.y - center.y)
    - radius * radius

/-- The squared distance from the center less the squared radius, at a parameter. -/
noncomputable def gap (l : Line ℝ) (center : Point ℝ) (radius t : ℝ) : ℝ :=
  l.lead * (t * t) + l.slope center * t + l.gapAtStop center radius

/-- The square of the length of a line times the chord that its straight line cuts from a circle. -/
noncomputable def chordMeasure (l : Line ℝ) (center : Point ℝ) (radius : ℝ) : ℝ :=
  4 * ((l.start.dist l.stop * radius) ^ 2
    - ((l.start.sub l.stop).crossXY (l.stop.sub center)) ^ 2)

lemma lead_eq_dist_sq (h : l.Proper tol) : l.lead = l.start.dist l.stop ^ 2 := by
  rw [Point.dist_sq, h.start_planar, h.stop_planar, lead]
  ring

lemma lead_pos (h : l.Proper tol) (htol : 0 ≤ tol) : 0 < l.lead := by
  rw [lead_eq_dist_sq h]
  exact pow_pos (htol.trans_lt h.lt_length) 2

lemma gap_eq (h : l.Proper tol) {center : Point ℝ} (hc : center.z = 0) (radius t : ℝ) :
    l.gap center radius t = (l.stop.lerp l.start t).dist center ^ 2 - radius ^ 2 := by
  rw [Point.dist_sq]
  simp only [gap, lead, slope, gapAtStop, Point.lerp, h.start_planar, h.stop_planar, hc]
  ring

lemma discrim_gap (h : l.Proper tol) (center : Point ℝ) (radius : ℝ) :
    discrim l.lead (l.slope center) (l.gapAtStop center radius) = l.chordMeasure center radius := by
  rw [chordMeasure, mul_pow, ← lead_eq_dist_sq h]
  simp only [discrim, lead, slope, gapAtStop, Point.crossXY, Point.sub]
  ring

/-- The discriminant that is formed is the one of the gap, and measures a chord. -/
lemma discriminant_eq (h : l.Proper tol) (center : Point ℝ) (radius : ℝ) :
    (Quadratic.ofLine l center radius).discriminant = l.chordMeasure center radius := by
  rw [← discrim_gap h, discrim, sq]
  rfl

/-- The larger root of the gap. -/
noncomputable def highRoot (l : Line ℝ) (center : Point ℝ) (radius : ℝ) : ℝ :=
  (-l.slope center + √(l.chordMeasure center radius)) / (2 * l.lead)

noncomputable def lowRoot (l : Line ℝ) (center : Point ℝ) (radius : ℝ) : ℝ :=
  (-l.slope center - √(l.chordMeasure center radius)) / (2 * l.lead)

lemma roots_eq (h : l.Proper tol) (htol : 0 ≤ tol) (center : Point ℝ) (radius : ℝ) :
    (Quadratic.ofLine l center radius).roots
      = .ok [l.highRoot center radius, l.lowRoot center radius] := by
  have hlead : 2 * l.lead ≠ 0 := (mul_pos two_pos (lead_pos h htol)).ne'
  have hroot : Widening.sqrt (Quadratic.ofLine l center radius).discriminant
      = √(l.chordMeasure center radius) := by
    rw [discriminant_eq h]; rfl
  unfold Quadratic.roots
  rw [hroot]
  change (do
    let high ← quotient (-l.slope center + √(l.chordMeasure center radius)) (2 * l.lead)
    let low ← quotient (-l.slope center - √(l.chordMeasure center radius)) (2 * l.lead)
    return [high, low] : Except (Fault ℝ) (List ℝ)) = _
  rw [quotient_of_ne _ hlead, quotient_of_ne _ hlead]
  rfl

/-- The gap is a product over its roots. -/
lemma gap_eq_mul_roots (h : l.Proper tol) (htol : 0 ≤ tol) (center : Point ℝ) (radius : ℝ)
    (hD : 0 ≤ l.chordMeasure center radius) (t : ℝ) :
    l.gap center radius t
      = l.lead * ((t - l.lowRoot center radius) * (t - l.highRoot center radius)) := by
  have hlead := (lead_pos h htol).ne'
  have hsq : √(l.chordMeasure center radius) ^ 2
      = l.slope center ^ 2 - 4 * l.lead * l.gapAtStop center radius := by
    rw [Real.sq_sqrt hD, ← discrim_gap h, discrim]
  rw [gap, lowRoot, highRoot]
  field_simp
  linear_combination hsq

/-- The roots of the gap are the two parameters that are computed, if there are any. -/
lemma gap_eq_zero_iff (h : l.Proper tol) (htol : 0 ≤ tol) {center : Point ℝ} {radius : ℝ}
    (hD : 0 ≤ l.chordMeasure center radius) (t : ℝ) :
    l.gap center radius t = 0 ↔ t = l.lowRoot center radius ∨ t = l.highRoot center radius := by
  rw [gap_eq_mul_roots h htol center radius hD, mul_eq_zero, mul_eq_zero, sub_eq_zero, sub_eq_zero,
    or_iff_right (lead_pos h htol).ne']

/-- **The intersection of a line and a curve over `ℝ`.** -/
lemma intersectCurve_eq (h : l.Proper tol) (htol : 0 ≤ tol) (c : Curve ℝ) (slack radiusTol : ℝ) :
    l.intersectCurve c slack radiusTol =
      if |l.chordMeasure c.center c.radius| < radiusTol then .ok (.flagged .tangent)
      else if l.chordMeasure c.center c.radius < 0 then .ok .miss
      else do
        let points ← c.select
          (l.pointsAt [l.highRoot c.center c.radius, l.lowRoot c.center c.radius]) slack
        return .crossing points := by
  have htangent : (Quadratic.ofLine l c.center c.radius).isTangent radiusTol
      = decide (|l.chordMeasure c.center c.radius| < radiusTol) := by
    -- the absolute value is written out in the wide type
    have habs : (if l.chordMeasure c.center c.radius < 0 then -l.chordMeasure c.center c.radius
        else l.chordMeasure c.center c.radius) = |l.chordMeasure c.center c.radius| := by
      split_ifs with hneg
      · rw [abs_of_neg hneg]
      · rw [abs_of_nonneg (not_lt.mp hneg)]
    unfold Quadratic.isTangent
    rw [discriminant_eq h, ← habs]
    rfl
  unfold intersectCurve
  simp only [htangent, decide_eq_true_eq]
  rw [roots_eq h htol, discriminant_eq h]
  rfl

/-! ## Crossings of a circle -/

lemma chordMeasure_pos (h : l.Proper tol) (htol : 0 ≤ tol) {center : Point ℝ} {radius : ℝ}
    (hsign : l.gap center radius 0 * l.gap center radius 1 < 0) :
    0 < l.chordMeasure center radius := by
  have hlead := lead_pos h htol
  rw [← discrim_gap h, discrim]
  simp only [gap, mul_zero, mul_one, zero_add] at hsign
  rcases mul_neg_iff.mp hsign with ⟨-, hneg⟩ | ⟨hneg, -⟩
  · nlinarith [sq_nonneg (2 * l.lead + l.slope center), mul_pos hlead (neg_pos.mpr hneg)]
  · nlinarith [sq_nonneg (l.slope center), mul_pos hlead (neg_pos.mpr hneg)]

lemma lowRoot_lt_highRoot (h : l.Proper tol) (htol : 0 ≤ tol) {center : Point ℝ} {radius : ℝ}
    (hD : 0 < l.chordMeasure center radius) :
    l.lowRoot center radius < l.highRoot center radius := by
  have hlead := lead_pos h htol
  have hroot := Real.sqrt_pos.mpr hD
  rw [lowRoot, highRoot]
  exact div_lt_div_of_pos_right (by linarith) (by linarith)

/-- If a product over two roots has different signs at zero and at one, just one of them lies in
between. -/
lemma roots_separated {low high : ℝ} (hlt : low < high)
    (h : (low * high) * ((1 - low) * (1 - high)) < 0) :
    (0 < low ∧ low < 1 ∧ 1 < high) ∨ (low < 0 ∧ 0 < high ∧ high < 1) := by
  rcases mul_neg_iff.mp h with ⟨hsame, hapart⟩ | ⟨hapart, hsame⟩
  · -- both roots on one side of zero, and one between them
    rcases mul_neg_iff.mp hapart with ⟨h1, h2⟩ | ⟨h1, h2⟩
    · have hhigh : 1 < high := by linarith
      exact .inl ⟨pos_of_mul_pos_left hsame (by linarith), by linarith, hhigh⟩
    · linarith
  · -- zero between the roots, and both on one side of one
    rcases mul_neg_iff.mp hapart with ⟨h1, h2⟩ | ⟨h1, h2⟩
    · linarith
    · have hhigh : 0 < 1 - high := pos_of_mul_pos_right hsame (by linarith)
      exact .inr ⟨h1, h2, by linarith⟩

/-- A gap that changes its sign along the line has exactly one root on it. -/
lemma pointsAt_roots (h : l.Proper tol) (htol : 0 ≤ tol) {center : Point ℝ} {radius : ℝ}
    (hsign : l.gap center radius 0 * l.gap center radius 1 < 0) :
    ∃ t, 0 ≤ t ∧ t ≤ 1 ∧ l.gap center radius t = 0 ∧
      (∀ s, 0 ≤ s → s ≤ 1 → l.gap center radius s = 0 → s = t) ∧
      l.pointsAt [l.highRoot center radius, l.lowRoot center radius] = [l.stop.lerp l.start t] := by
  have hD := chordMeasure_pos h htol hsign
  have hlt := lowRoot_lt_highRoot h htol hD
  have hgap := gap_eq_mul_roots h htol center radius hD.le
  have hzero := gap_eq_zero_iff h htol hD.le
  set low := l.lowRoot center radius
  set high := l.highRoot center radius
  have hproduct : (low * high) * ((1 - low) * (1 - high)) < 0 := by
    have hfactor : l.gap center radius 0 * l.gap center radius 1
        = l.lead ^ 2 * ((low * high) * ((1 - low) * (1 - high))) := by rw [hgap, hgap]; ring
    rw [hfactor] at hsign
    exact neg_of_mul_neg_right hsign (sq_nonneg _)
  rcases roots_separated hlt hproduct with ⟨h0, h1, hbeyond⟩ | ⟨hbefore, h0, h1⟩
  · refine ⟨low, h0.le, h1.le, (hzero low).mpr (.inl rfl), ?_, ?_⟩
    · intro s _ hs hroot
      rcases (hzero s).mp hroot with rfl | rfl
      · rfl
      · linarith
    · simp [pointsAt, h0.le, h1.le, hbeyond]
  · refine ⟨high, h0.le, h1.le, (hzero high).mpr (.inr rfl), ?_, ?_⟩
    · intro s hs _ hroot
      rcases (hzero s).mp hroot with rfl | rfl
      · linarith
      · rfl
    · simp [pointsAt, h0.le, h1.le, hbefore]

/-- A line that starts or ends strictly inside a circle, and has its other end strictly outside. -/
def Leaves (l : Line ℝ) (c : Circle ℝ) : Prop :=
  (l.start.dist c.center < c.radius ∧ c.radius < l.stop.dist c.center) ∨
    (l.stop.dist c.center < c.radius ∧ c.radius < l.start.dist c.center)

lemma Leaves.gap_neg {c : Circle ℝ} (hleaves : l.Leaves c) (h : l.Proper tol) (hc : c.Proper) :
    l.gap c.center c.radius 0 * l.gap c.center c.radius 1 < 0 := by
  have hinside : ∀ p : Point ℝ, p.dist c.center < c.radius →
      p.dist c.center ^ 2 - c.radius ^ 2 < 0 :=
    fun p hp => sub_neg.mpr (pow_lt_pow_left₀ hp (Point.dist_nonneg _ _) two_ne_zero)
  have houtside : ∀ p : Point ℝ, c.radius < p.dist c.center →
      0 < p.dist c.center ^ 2 - c.radius ^ 2 :=
    fun p hp => sub_pos.mpr (pow_lt_pow_left₀ hp hc.radius_pos.le two_ne_zero)
  have hstop : l.stop.lerp l.start 0 = l.stop := by simp [Point.lerp]
  have hstart : l.stop.lerp l.start 1 = l.start := by simp [Point.lerp]
  rw [gap_eq h hc.planar, gap_eq h hc.planar, hstop, hstart]
  rcases hleaves with ⟨hin, hout⟩ | ⟨hin, hout⟩
  · exact mul_neg_of_pos_of_neg (houtside _ hout) (hinside _ hin)
  · exact mul_neg_of_neg_of_pos (hinside _ hin) (houtside _ hout)

/-- A point of a line is on a circle iff the gap vanishes at its parameter. -/
lemma mem_outline_lerp (h : l.Proper tol) {c : Circle ℝ} (hc : c.Proper) (t : ℝ) :
    l.stop.lerp l.start t ∈ c.outline ↔ l.gap c.center c.radius t = 0 := by
  have hz : (l.stop.lerp l.start t).z = 0 := by simp [Point.lerp, h.start_planar, h.stop_planar]
  rw [gap_eq h hc.planar, sub_eq_zero, sq_eq_sq₀ (Point.dist_nonneg _ _) hc.radius_pos.le]
  exact and_iff_right hz

/-- **A proper crossing is found outside the band of tangency.**  A line from strictly inside a
circle to strictly outside it has exactly one point in common with the circle.  Whichever of the two
comes first, this point is reported if the discriminant, which is the square of the length of the
line times the chord on it, reaches the tolerance, and otherwise a contact without a point. -/
theorem crossing_found {c : Circle ℝ} (hc : Segment.Built (.curve (.circle c)))
    (hl : Segment.Built (.line l)) (hleaves : l.Leaves c) (tol radiusTol : ℝ) :
    ∃ p, c.outline ∩ l.trace = {p} ∧
      (radiusTol ≤ l.chordMeasure c.center c.radius →
        (Segment.curve (.circle c)).intersect (.line l) tol radiusTol = .ok (.crossing [p]) ∧
        (Segment.line l).intersect (.curve (.circle c)) tol radiusTol = .ok (.crossing [p])) ∧
      (l.chordMeasure c.center c.radius < radiusTol →
        (Segment.curve (.circle c)).intersect (.line l) tol radiusTol = .ok (.flagged .tangent) ∧
        (Segment.line l).intersect (.curve (.circle c)) tol radiusTol = .ok (.flagged .tangent)) := by
  have h := hl.line
  have hcircle : c.Proper := hc.support
  have hsign := hleaves.gap_neg h hcircle
  have hD := chordMeasure_pos h coincidentTol_pos.le hsign
  obtain ⟨t, ht0, ht1, hzero, hunique, hpoints⟩ := pointsAt_roots h coincidentTol_pos.le hsign
  have hsolve := intersectCurve_eq h coincidentTol_pos.le (.circle c) tol radiusTol
  simp only [Curve.center, Curve.radius, abs_of_pos hD, hpoints, not_lt.mpr hD.le, if_false]
    at hsolve
  refine ⟨l.stop.lerp l.start t, ?_, ?_, ?_⟩
  · ext p
    rw [Set.mem_singleton_iff]
    constructor
    · rintro ⟨hout, s, hs0, hs1, rfl⟩
      rw [hunique s hs0 hs1 ((mem_outline_lerp h hcircle s).mp hout)]
    · rintro rfl
      exact ⟨(mem_outline_lerp h hcircle t).mpr hzero, t, ht0, ht1, rfl⟩
  · intro hband
    rw [if_neg (not_lt.mpr hband)] at hsolve
    exact ⟨hsolve, hsolve⟩
  · intro hband
    rw [if_pos hband] at hsolve
    exact ⟨hsolve, hsolve⟩

/-! ## Lines from the center -/

def aboutOrigin (radius : ℝ) : Circle ℝ := ⟨⟨0, 0, 0⟩, radius⟩

/-- The line from the origin to a point of the first axis. -/
def fromOrigin (x : ℝ) : Line ℝ := ⟨⟨0, 0, 0⟩, ⟨x, 0, 0⟩⟩

lemma built_aboutOrigin {radius : ℝ} (h : coincidentTol < radius) :
    Segment.Built (.curve (.circle (aboutOrigin radius))) :=
  .ofCircle (Circle.ofRadius_of_lt rfl h)

lemma built_fromOrigin {x : ℝ} (h : coincidentTol < x) : Segment.Built (.line (fromOrigin x)) := by
  refine .ofLine (Line.ofEnds_of_lt rfl rfl (.inl ?_))
  rw [zero_sub, abs_neg]
  exact h.trans_le (le_abs_self x)

lemma dist_fromOrigin {x : ℝ} (hx : 0 ≤ x) : (fromOrigin x).stop.dist (fromOrigin x).start = x := by
  rw [Point.dist_eq_iff hx]
  simp [fromOrigin]

lemma leaves_fromOrigin {radius x : ℝ} (hradius : 0 < radius) (hx : radius < x) :
    (fromOrigin x).Leaves (aboutOrigin radius) := by
  have hstart : (fromOrigin x).start.dist (aboutOrigin radius).center = 0 := Point.dist_self _
  have hstop : (fromOrigin x).stop.dist (aboutOrigin radius).center = x :=
    dist_fromOrigin (hradius.trans hx).le
  exact .inl ⟨hstart.trans_lt hradius, hx.trans_eq hstop.symm⟩

/-- A line from the center runs along a diameter. -/
lemma chordMeasure_fromOrigin {radius x : ℝ} (hx : 0 ≤ x) :
    (fromOrigin x).chordMeasure (aboutOrigin radius).center (aboutOrigin radius).radius
      = (2 * x * radius) ^ 2 := by
  rw [chordMeasure, Point.dist_comm, dist_fromOrigin hx]
  simp only [fromOrigin, aboutOrigin, Point.crossXY, Point.sub]
  ring

/-- A line from the center of a circle of radius five to twice its radius meets it half way. -/
theorem crossing_found_fromOrigin :
    Segment.Built (.curve (.circle (aboutOrigin 5))) ∧ Segment.Built (.line (fromOrigin 10)) ∧
      (fromOrigin 10).Leaves (aboutOrigin 5) ∧
      (Segment.curve (.circle (aboutOrigin 5))).intersect (.line (fromOrigin 10))
        coincidentTol radiusTol = .ok (.crossing [⟨5, 0, 0⟩]) := by
  have hc : Segment.Built (.curve (.circle (aboutOrigin 5))) :=
    built_aboutOrigin (by rw [coincidentTol_eq]; norm_num)
  have hl : Segment.Built (.line (fromOrigin 10)) :=
    built_fromOrigin (by rw [coincidentTol_eq]; norm_num)
  have hleaves : (fromOrigin 10).Leaves (aboutOrigin 5) :=
    leaves_fromOrigin (by norm_num) (by norm_num)
  have hband : (radiusTol : ℝ)
      ≤ (fromOrigin 10).chordMeasure (aboutOrigin 5).center (aboutOrigin 5).radius := by
    rw [chordMeasure_fromOrigin (by norm_num), radiusTol_eq]
    norm_num
  obtain ⟨p, hp, hfound, -⟩ := crossing_found hc hl hleaves coincidentTol radiusTol
  have hmem : (⟨5, 0, 0⟩ : Point ℝ) ∈ (aboutOrigin 5).outline ∩ (fromOrigin 10).trace := by
    refine ⟨⟨rfl, dist_fromOrigin (by norm_num)⟩, 1 / 2, by norm_num, by norm_num, ?_⟩
    simp only [fromOrigin, Point.lerp, Point.mk.injEq]
    norm_num
  rw [hp, Set.mem_singleton_iff] at hmem
  exact ⟨hc, hl, hleaves, by rw [(hfound hband).1, hmem]⟩

/-- **A small crossing is taken for a contact.**  The line starts at the center of the circle and
ends at twice its radius, and yet no point is reported. -/
theorem small_crossing_lost :
    Segment.Built (.curve (.circle (aboutOrigin 0.01))) ∧ Segment.Built (.line (fromOrigin 0.02)) ∧
      (fromOrigin 0.02).Leaves (aboutOrigin 0.01) ∧
      (Segment.curve (.circle (aboutOrigin 0.01))).intersect (.line (fromOrigin 0.02))
        coincidentTol radiusTol = .ok (.flagged .tangent) := by
  have hl : Segment.Built (.line (fromOrigin 0.02)) :=
    built_fromOrigin (by rw [coincidentTol_eq]; norm_num)
  refine ⟨built_aboutOrigin (by rw [coincidentTol_eq]; norm_num), hl,
    leaves_fromOrigin (by norm_num) (by norm_num), ?_⟩
  have hband : |(fromOrigin 0.02).chordMeasure (aboutOrigin 0.01).center (aboutOrigin 0.01).radius|
      < radiusTol := by
    rw [chordMeasure_fromOrigin (by norm_num), abs_of_nonneg (sq_nonneg _), radiusTol_eq]
    norm_num
  have hsolve := intersectCurve_eq hl.line coincidentTol_pos.le (.circle (aboutOrigin 0.01))
    coincidentTol radiusTol
  exact hsolve.trans (if_pos hband)

end Line

end Contour
