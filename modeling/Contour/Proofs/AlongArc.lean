import Contour.Proofs.Samples

/-!
# The order of points along an arc

Two points that a line or a circle shares with an arc are put in the order of their directions, each
raised by whole turns until it reaches the start of the arc.  An arc also spans directions just before
its start, up to the tolerance.  Raised to the start, these come last, a turn later, although the samples
near them are the first ones.

* `Segment.InOrder` — two points are near samples that come in this order; `Arc.inOrder_iff` says it with
  angles.
* `Arc.heading`, `Arc.Precedes` — the angle that decides the order, and points that lie before the start.
* `Line.intersectCurve_ordered`, `Curve.intersectArcs_ordered` — reported points are in the order of
  their headings.
* `Point.dist_around_le_or` — on a circle, what lies between two points is not nearer than both.
* `Line.throughTop`, `Line.intersect_throughTop` — lines through the top of a half circle, and what is
  reported of them.
* `Arc.crossings_inOrder_iff` — which pairs of reported points are in order, and
  `Arc.crossings_out_of_order`, a pair that is not.
-/

namespace Contour

open Real (pi)

/-- Two points are near samples of a segment, the first near one that does not come after that of the
second. -/
def Segment.InOrder (s : Segment ℝ) (ε : ℝ) (p q : Point ℝ) : Prop :=
  ∃ u v, 0 ≤ u ∧ u ≤ v ∧ v ≤ 1 ∧ ∃ p' q', s.sample u = .ok p' ∧ s.sample v = .ok q' ∧
    p.dist p' ≤ ε ∧ q.dist q' ≤ ε

/-! ## Points of a circle -/

namespace Point

lemma abs_sub_x_le_dist (p q : Point ℝ) : |p.x - q.x| ≤ p.dist q := by
  refine abs_le_of_sq_le_sq ?_ (Point.dist_nonneg p q)
  rw [dist_sq]
  linarith [sq_nonneg (p.y - q.y), sq_nonneg (p.z - q.z)]

/-- **What lies between two points of a circle is not nearer than both**, seen from a point that is not
between them. -/
lemma dist_around_le_or (center : Point ℝ) (radius : ℝ) {κ x y z : ℝ} (hx : κ ≤ x) (hxy : x ≤ y)
    (hyz : y ≤ z) (hz : z ≤ κ + 2 * pi) :
    (center.around radius κ).dist (center.around radius x)
        ≤ (center.around radius κ).dist (center.around radius y) ∨
      (center.around radius κ).dist (center.around radius z)
        ≤ (center.around radius κ).dist (center.around radius y) := by
  have hnearer : ∀ {θ φ : ℝ}, Real.cos (φ - κ) ≤ Real.cos (θ - κ) →
      (center.around radius κ).dist (center.around radius θ)
        ≤ (center.around radius κ).dist (center.around radius φ) := by
    intro θ φ hcos
    refine le_of_sq_le_sq ?_ (Point.dist_nonneg _ _)
    rw [dist_around_sq, dist_around_sq, ← Real.cos_neg (κ - θ), ← Real.cos_neg (κ - φ), neg_sub,
      neg_sub]
    exact mul_le_mul_of_nonneg_left (by linarith) (sq_nonneg radius)
  rcases le_total (y - κ) pi with hhalf | hhalf
  · exact .inl (hnearer (Real.cos_le_cos_of_nonneg_of_le_pi (by linarith) hhalf (by linarith)))
  · -- past half a turn the points come nearer again
    refine .inr (hnearer ?_)
    rw [← Real.cos_two_pi_sub (y - κ), ← Real.cos_two_pi_sub (z - κ)]
    exact Real.cos_le_cos_of_nonneg_of_le_pi (by linarith) (by linarith) (by linarith)

end Point

namespace Arc

variable {a : Arc ℝ} {p q : Point ℝ} {tol ε : ℝ}

/-- Two points are in order along an arc if they are near points of its circle at angles in order. -/
lemma inOrder_iff (hle : a.startAngle ≤ a.endAngle) :
    (Segment.curve (.arc a)).InOrder ε p q ↔
      ∃ θ φ, a.startAngle ≤ θ ∧ θ ≤ φ ∧ φ ≤ a.endAngle ∧
        p.dist (a.center.around a.radius θ) ≤ ε ∧ q.dist (a.center.around a.radius φ) ≤ ε := by
  constructor
  · rintro ⟨u, v, h0, huv, h1, p', q', hp', hq', hp, hq⟩
    obtain rfl := Except.ok.inj hp'
    obtain rfl := Except.ok.inj hq'
    have hrange := sub_nonneg.mpr hle
    refine ⟨_, _, ?_, ?_, ?_, hp, hq⟩
    · exact le_add_of_nonneg_right (mul_nonneg h0 hrange)
    · exact add_le_add_right (mul_le_mul_of_nonneg_right huv hrange) _
    · show a.startAngle + v * (a.endAngle - a.startAngle) ≤ a.endAngle
      linarith [mul_le_mul_of_nonneg_right h1 hrange]
  · rintro ⟨θ, φ, hθ, hθφ, hφ, hp, hq⟩
    have hθ' : θ ≤ (Curve.arc a).endAngle := hθφ.trans hφ
    have hφ' : (Curve.arc a).startAngle ≤ φ := hθ.trans hθφ
    exact ⟨_, _, (Curve.paramOf_mem hθ hθ').1, Curve.paramOf_mono (c := .arc a) hle hθφ,
      (Curve.paramOf_mem hφ' hφ).2, _, _, Curve.sample_paramOf hθ hθ', Curve.sample_paramOf hφ' hφ,
      hp, hq⟩

/-! ## Headings -/

/-- The direction of a point, raised by whole turns until it reaches the start of an arc. -/
noncomputable def heading (a : Arc ℝ) (p : Point ℝ) : ℝ :=
  Angle.unwrapAfter (p.angleXY a.center) a.startAngle

/-- A point whose heading is past the end of an arc by more than the tolerance; if the arc spans its
direction all the same, it lies just before the start. -/
def Precedes (a : Arc ℝ) (tol : ℝ) (p : Point ℝ) : Prop := a.endAngle + tol / a.radius < a.heading p

lemma Proper.support (ha : a.Proper) : (Curve.arc a).support.Proper := ⟨ha.planar, ha.radius_pos⟩

lemma Proper.around_heading (ha : a.Proper) (hp : p ∈ (Curve.arc a).support.outline) :
    a.center.around a.radius (a.heading p) = p := by
  rw [heading, Point.around_unwrapAfter]
  exact Circle.around_angleXY ha.support hp

/-- A point is also at the angle a turn before its heading. -/
lemma Proper.around_heading_sub_turn (ha : a.Proper) (hp : p ∈ (Curve.arc a).support.outline) :
    a.center.around a.radius (a.heading p - 2 * pi) = p := by
  have hturn := Point.around_add_turns a.center a.radius (a.heading p - 2 * pi) 1
  rwa [Int.cast_one, one_mul, sub_add_cancel, ha.around_heading hp, eq_comm] at hturn

/-- Angles within the slack of an arc are those of points within the tolerance. -/
lemma Proper.dist_around_le (ha : a.Proper) {θ φ : ℝ} (h : |θ - φ| ≤ tol / a.radius) :
    (a.center.around a.radius θ).dist (a.center.around a.radius φ) ≤ tol :=
  (Point.dist_around_le _ ha.radius_pos.le _ _).trans ((le_div_iff₀' ha.radius_pos).mp h)

lemma Proper.heading_lt (ha : a.Proper) (p : Point ℝ) : a.heading p < a.startAngle + 2 * pi := by
  have hangle : p.angleXY a.center ≤ pi := Complex.arg_le_pi _
  exact Angle.unwrapAfter_lt (by linarith [ha.neg_pi_lt])

/-- A direction that is spanned from before the start is no further before it than the tolerance. -/
lemma le_heading_of_precedes (hspans : (Curve.arc a).Spans tol p)
    (h : a.Precedes tol p) : a.startAngle - tol / a.radius ≤ a.heading p - 2 * pi := by
  obtain ⟨n, hlow, hhigh⟩ := hspans
  obtain ⟨k, -, hk⟩ := Angle.unwrapAfter_isLeast (p.angleXY a.center) a.startAngle
  rw [Precedes, heading, hk] at h
  rw [heading, hk]
  -- fewer turns than the heading has are one turn fewer at most
  have hfewer : n + 1 ≤ k := by
    by_contra hle
    have hcast : ((k : ℤ) : ℝ) ≤ n := by exact_mod_cast not_lt.mp hle
    rw [Int.cast_natCast] at hcast
    linarith [mul_le_mul_of_nonneg_right hcast turn_pos.le]
  have hcast : (n : ℝ) + 1 ≤ (k : ℝ) := by exact_mod_cast hfewer
  linarith [mul_le_mul_of_nonneg_right hcast turn_pos.le]

/-- A point that lies just before the start is near the first point of the circle. -/
lemma Proper.near_start_of_precedes (ha : a.Proper) (hp : p ∈ (Curve.arc a).support.outline)
    (hspans : (Curve.arc a).Spans tol p) (h : a.Precedes tol p) :
    p.dist (a.center.around a.radius a.startAngle) ≤ tol := by
  have hclose : |a.heading p - 2 * pi - a.startAngle| ≤ tol / a.radius := by
    rw [abs_le]
    constructor
    · linarith [le_heading_of_precedes hspans h]
    · linarith [ha.heading_lt p, le_heading_of_precedes hspans h]
  have hnear := ha.dist_around_le hclose
  rwa [ha.around_heading_sub_turn hp] at hnear

/-- Any other point is near the point of the arc at its heading, or at the end. -/
lemma Proper.near_of_not_precedes (ha : a.Proper) (htol : 0 ≤ tol)
    (hp : p ∈ (Curve.arc a).support.outline) (h : ¬ a.Precedes tol p) :
    p.dist (a.center.around a.radius (min (a.heading p) a.endAngle)) ≤ tol := by
  rw [Precedes, not_lt] at h
  have hslack := div_nonneg htol ha.radius_pos.le
  have hclose : |a.heading p - min (a.heading p) a.endAngle| ≤ tol / a.radius := by
    rw [abs_of_nonneg (sub_nonneg.mpr (min_le_left _ _)), sub_le_comm, le_min_iff]
    constructor <;> linarith
  have hnear := ha.dist_around_le hclose
  rwa [ha.around_heading hp] at hnear

end Arc

/-! ## The order of what is reported -/

lemma Arc.orderAlong_pairwise (a : Arc ℝ) {points : List (Point ℝ)} (h : points.length ≤ 2) :
    ((Curve.arc a).orderAlong points).Pairwise fun p q => a.heading p ≤ a.heading q :=
  ordered_pairwise _ h

/-- What is reported of a line and an arc is in the order of the headings. -/
lemma Line.intersectCurve_ordered {l : Line ℝ} {a : Arc ℝ} {r : Intersection ℝ} {slack radiusTol : ℝ}
    (hl : (Segment.line l).Made) (ha : a.Proper)
    (hr : l.intersectCurve (.arc a) slack radiusTol = .ok r) :
    r.points.Pairwise fun p q => a.heading p ≤ a.heading q := by
  have hcovers : ∀ p, a.covers p slack = .ok ((Curve.arc a).reaches slack p) :=
    fun p => Curve.covers_eq (c := .arc a) ha.support p
  rw [intersectCurve_eq hl.line le_rfl] at hr
  split_ifs at hr with hband hneg
  · cases hr
    exact List.Pairwise.nil
  · cases hr
    exact List.Pairwise.nil
  · simp only [Curve.select, filterM_ok hcovers] at hr
    cases hr
    refine a.orderAlong_pairwise ((List.length_filter_le _ _).trans ?_)
    rw [pointsAt, List.length_map]
    exact List.length_filter_le _ _

/-- What is reported of two curves on different circles is in the order of the headings along the
first that is an arc. -/
lemma Curve.intersectArcs_ordered {c d : Curve ℝ} {a : Arc ℝ} {r : Intersection ℝ}
    (hc : c.support.Proper) (hd : d.support.Proper) {tol radiusTol : ℝ} (htol : 0 < radiusTol)
    (hsame : ¬ c.support.same d.support radiusTol = true)
    (harc : (if c.isArc = true then c else d) = .arc a)
    (hr : c.intersectArcs d tol radiusTol = .ok r) :
    r.points.Pairwise fun p q => a.heading p ≤ a.heading q := by
  suffices h : ∃ s, c.intersectArcs d tol radiusTol = .ok s ∧
      s.points.Pairwise fun p q => a.heading p ≤ a.heading q by
    obtain ⟨s, hs, hpairwise⟩ := h
    rwa [Except.ok.inj (hr.symm.trans hs)]
  unfold intersectArcs
  rw [if_neg hsame, harc]
  refine Circle.resolve_spec htol (fun flag => List.Pairwise.nil) fun hlow hhigh => ?_
  obtain ⟨p, q, hcrossings, -, -⟩ := Circle.crossings_spec hc hd hlow hhigh
  rw [hcrossings]
  simp only [bind, Except.bind, pure, Except.pure, filterM_ok (bothCover_eq hc hd)]
  exact ⟨_, rfl, a.orderAlong_pairwise (List.length_filter_le _ _)⟩

namespace Arc

variable {a : Arc ℝ} {p q : Point ℝ} {tol : ℝ} {r : Intersection ℝ}

/-- What is reported without a flag of an arc and a line or a circle lies on the circle of the arc, in
directions that it spans, and in the order of the headings. -/
lemma reported_spec (ha : (Segment.curve (.arc a)).Built) {s : Segment ℝ} (hs : s.Built)
    (hkind : s.isArc = false)
    (hr : (Segment.curve (.arc a)).intersect s coincidentTol radiusTol = .ok r ∨
      s.intersect (.curve (.arc a)) coincidentTol radiusTol = .ok r) (hflag : r.flag = .plain) :
    (∀ p ∈ r.points, p ∈ (Curve.arc a).support.outline ∧ (Curve.arc a).Spans coincidentTol p) ∧
      r.points.Pairwise fun p q => a.heading p ≤ a.heading q := by
  rcases s with l | b | c
  · have hline : l.intersectCurve (.arc a) coincidentTol radiusTol = .ok r := hr.elim id id
    obtain ⟨r', hr', -, hon⟩ := Line.intersectCurve_on hs.made ha.made coincidentTol radiusTol
    obtain rfl := Except.ok.inj (hr'.symm.trans hline)
    exact ⟨fun p hp => (hon p hp).2, Line.intersectCurve_ordered hs.made ha.arc hline⟩
  · cases hkind
  · have hc : (Curve.circle c).support.Proper := hs.support
    -- on the circle of the arc itself the ends are reported as those of a run
    have happart : ∀ {d e : Curve ℝ}, (∃ x y, d.intersectSame e coincidentTol = .ok (.run x y)) →
        d.intersectArcs e coincidentTol radiusTol = .ok r →
        ¬ d.support.same e.support radiusTol = true := by
      rintro d e ⟨x, y, hrun⟩ heq hsame
      rw [Curve.intersectArcs, if_pos hsame, hrun] at heq
      obtain rfl := Except.ok.inj heq
      cases hflag
    rcases hr with hr | hr
    · have hsame := happart ⟨_, _, rfl⟩ hr
      obtain ⟨r', hr', -, hon⟩ :=
        Curve.intersectArcs_on ha.made hs.made radiusTol_pos hsame coincidentTol
      obtain rfl := Except.ok.inj (hr'.symm.trans hr)
      exact ⟨fun p hp => ⟨(hon p hp).1.1, (hon p hp).2.1⟩,
        Curve.intersectArcs_ordered ha.support hc radiusTol_pos hsame rfl hr⟩
    · have hsame := happart ⟨_, _, rfl⟩ hr
      obtain ⟨r', hr', -, hon⟩ :=
        Curve.intersectArcs_on hs.made ha.made radiusTol_pos hsame coincidentTol
      obtain rfl := Except.ok.inj (hr'.symm.trans hr)
      exact ⟨fun p hp => ⟨(hon p hp).1.2, (hon p hp).2.2⟩,
        Curve.intersectArcs_ordered hc ha.support radiusTol_pos hsame rfl hr⟩

end Arc

/-! ## Lines through the top of a half circle -/

/-- A point of the circle of an arc that is close to the first point is spanned. -/
lemma Arc.Proper.spans_of_near_start {a : Arc ℝ} (ha : a.Proper) {p : Point ℝ} {tol : ℝ}
    (hp : p ∈ (Curve.arc a).support.outline)
    (hnear : pi / 2 * p.dist (a.center.around a.radius a.startAngle) ≤ tol) :
    (Curve.arc a).Spans tol p := by
  have hpoint : a.center.around a.radius (p.angleXY a.center) = p :=
    Circle.around_angleXY ha.support hp
  obtain ⟨n, hn⟩ :=
    Point.exists_turns_of_dist a.center ha.radius_pos.le (p.angleXY a.center) a.startAngle
  rw [hpoint] at hn
  have hclose := (le_div_iff₀' ha.radius_pos).mpr (hn.trans hnear)
  rw [abs_le] at hclose
  exact ⟨n, by linarith, by linarith [ha.start_le_end]⟩

namespace Line

/-- Two common points with different headings are all that is reported of a line and an arc, the one with
the lower heading first. -/
lemma intersectCurve_eq_pair {l : Line ℝ} {a : Arc ℝ} (hl : (Segment.line l).Made)
    (ha : (Segment.curve (.arc a)).Made) {slack radiusTol : ℝ} (hpos : 0 < radiusTol)
    (hband : radiusTol ≤ |l.discriminant (.arc a)|) {p q : Point ℝ}
    (hp : p ∈ l.trace ∧ p ∈ (Curve.arc a).support.outline ∧ (Curve.arc a).Spans slack p)
    (hq : q ∈ l.trace ∧ q ∈ (Curve.arc a).support.outline ∧ (Curve.arc a).Spans slack q)
    (hlt : a.heading p < a.heading q) :
    l.intersectCurve (.arc a) slack radiusTol = .ok (.crossing [p, q]) := by
  obtain ⟨points, hr, -, hmem⟩ := intersectCurve_of_not_band hl ha slack hpos hband
  obtain ⟨r, hr', hcount, -⟩ := intersectCurve_on hl ha slack radiusTol
  obtain rfl := Except.ok.inj (hr.symm.trans hr')
  have hordered : points.Pairwise fun p q => a.heading p ≤ a.heading q :=
    intersectCurve_ordered hl ha.arc hr
  have hne : p ≠ q := fun heq => hlt.ne (congrArg a.heading heq)
  have hboth : [p, q] ⊆ points := by simp [(hmem p).mpr hp, (hmem q).mpr hq]
  have hperm : points.Perm [p, q] :=
    ((List.subperm_of_subset (by simp [hne]) hboth).perm_of_length_le hcount).symm
  rcases List.perm_pair.mp hperm with rfl | rfl
  · exact hr
  · exact absurd (List.rel_of_pairwise_cons hordered List.mem_cons_self) (not_le.mpr hlt)

lemma mem_outline_upperHalf {x y : ℝ} (h : x ^ 2 + y ^ 2 = 25) :
    (⟨x, y, 0⟩ : Point ℝ) ∈ (Curve.arc upperHalf).support.outline :=
  ⟨rfl, (Point.dist_origin (by norm_num) (by linarith)).trans upperHalf_radius.symm⟩

/-- Above the center the heading of a point is its direction. -/
lemma upperHalf_heading_of_nonneg {p : Point ℝ} (hp : 0 ≤ p.y) :
    upperHalf.heading p = p.angleXY ⟨0, 0, 0⟩ := by
  have hangle : 0 ≤ p.angleXY ⟨0, 0, 0⟩ := Complex.arg_nonneg_iff.mpr (by simpa using hp)
  rw [Arc.heading, upperHalf_angles.1]
  exact Angle.unwrapAfter_of_le hangle

/-- Below the center it is past the end. -/
lemma lt_upperHalf_heading_of_neg {p : Point ℝ} (hp : p.y < 0) : pi < upperHalf.heading p := by
  have hangle : p.angleXY upperHalf.center < 0 :=
    Complex.arg_neg_iff.mpr (by simpa [upperHalf, Arc.aboutOrigin] using hp)
  have hlow : -pi < p.angleXY upperHalf.center := Complex.neg_pi_lt_arg _
  rw [Arc.heading, upperHalf_angles.1, Angle.unwrapAfter_of_lt hangle (by linarith)]
  linarith

lemma upperHalf_heading_top : upperHalf.heading ⟨0, 5, 0⟩ = pi / 2 := by
  rw [upperHalf_heading_of_nonneg (by norm_num)]
  refine Complex.arg_eq_pi_div_two_iff.mpr ⟨?_, ?_⟩ <;> norm_num

/-- On the upper half the samples go to the left, so a point does not come after one that is further to
the left. -/
lemma not_inOrder_of_right {ε : ℝ} {p q : Point ℝ} (hright : p.x + 2 * ε < q.x) :
    ¬ (Segment.curve (.arc upperHalf)).InOrder ε p q := by
  intro horder
  obtain ⟨hfirst, hlast⟩ := upperHalf_angles
  obtain ⟨θ, φ, hθ, hθφ, hφ, hp, hq⟩ :=
    (Arc.inOrder_iff made_upperHalf.arc.start_le_end).mp horder
  rw [hfirst] at hθ
  rw [hlast] at hφ
  rw [upperHalf_radius] at hp hq
  have hleft : upperHalf.center.x + 5 * Real.cos φ ≤ upperHalf.center.x + 5 * Real.cos θ := by
    linarith [Real.cos_le_cos_of_nonneg_of_le_pi hθ hφ hθφ]
  have hfromP := (abs_le.mp ((Point.abs_sub_x_le_dist _ _).trans hp)).1
  have hfromQ := (abs_le.mp ((Point.abs_sub_x_le_dist _ _).trans hq)).2
  simp only [Point.around] at hfromP hfromQ
  linarith

/-- The line with a given downward slope through the top of the circle of a given radius. -/
noncomputable def throughTop (radius c : ℝ) : Line ℝ :=
  between (-radius) (radius * (1 + c)) (2 * radius) (radius * (1 - 2 * c))

/-- The other point of that line on the circle. -/
noncomputable def besideTop (radius c : ℝ) : Point ℝ :=
  ⟨2 * radius * c / (1 + c ^ 2), radius * (1 - c ^ 2) / (1 + c ^ 2), 0⟩

variable {radius c : ℝ}

lemma built_throughTop (c : ℝ) : (Segment.line (throughTop 5 c)).Built :=
  built_between (.inl (by rw [coincidentTol_eq]; norm_num))

lemma discriminant_throughTop (c : ℝ) :
    (throughTop 5 c).discriminant (.arc upperHalf) = 22500 * c ^ 2 := by
  have hl := (built_throughTop c).made.line
  rw [discriminant_eq_chordMeasure hl, chordMeasure, mul_pow, ← lead_eq_dist_sq hl,
    show (Curve.arc upperHalf).radius = 5 from upperHalf_radius]
  simp only [throughTop, between, lead, Curve.center, upperHalf, Arc.aboutOrigin, Point.crossXY,
    Point.sub]
  ring

lemma top_mem_throughTop (radius c : ℝ) : ⟨0, radius, 0⟩ ∈ (throughTop radius c).trace := by
  refine ⟨2 / 3, by norm_num, by norm_num, ?_⟩
  simp only [throughTop, between, Point.lerp, Point.mk.injEq]
  refine ⟨?_, ?_, ?_⟩ <;> ring

lemma besideTop_mem_throughTop (radius : ℝ) (hc : 0 ≤ c) :
    besideTop radius c ∈ (throughTop radius c).trace := by
  have hpos : 0 < 1 + c ^ 2 := by positivity
  have hlow : 0 ≤ 2 * c / (1 + c ^ 2) := by positivity
  have hhigh : 2 * c / (1 + c ^ 2) ≤ 1 :=
    (div_le_one hpos).mpr (by linarith [sq_nonneg (1 - c)])
  refine ⟨(2 - 2 * c / (1 + c ^ 2)) / 3, by linarith, by linarith, ?_⟩
  simp only [besideTop, throughTop, between, Point.lerp, Point.mk.injEq]
  refine ⟨?_, ?_, ?_⟩
  · ring
  · field_simp
    ring
  · ring

lemma besideTop_mem_outline (c : ℝ) : besideTop 5 c ∈ (Curve.arc upperHalf).support.outline := by
  have hpos : 0 < 1 + c ^ 2 := by positivity
  refine mem_outline_upperHalf ?_
  field_simp
  ring

/-- At a slope a little over one the other point is close to the right end of the circle. -/
lemma besideTop_dist_le (hradius : 0 ≤ radius) (hc : 1 ≤ c) :
    (besideTop radius c).dist ⟨radius, 0, 0⟩ ≤ radius * (c - 1) := by
  have hpos : 0 < 1 + c ^ 2 := by positivity
  have hdist : (besideTop radius c).dist ⟨radius, 0, 0⟩ ^ 2
      = 2 * (radius * (c - 1)) ^ 2 / (1 + c ^ 2) := by
    rw [Point.dist_sq]
    simp only [besideTop]
    field_simp
    ring
  refine le_of_sq_le_sq ?_ (mul_nonneg hradius (sub_nonneg.mpr hc))
  have htwo : 2 ≤ 1 + c ^ 2 := by linarith [one_le_pow₀ (n := 2) hc]
  rw [hdist, div_le_iff₀ hpos, mul_comm]
  exact mul_le_mul_of_nonneg_left htwo (sq_nonneg _)

/-- What is reported of a line through the top and the upper half, if the other point is spanned. -/
lemma intersect_throughTop {p q : Point ℝ} (hc : 0 < c) (hband : radiusTol ≤ 22500 * c ^ 2)
    (hspans : (Curve.arc upperHalf).Spans coincidentTol (besideTop 5 c))
    (hpair : p = besideTop 5 c ∧ q = ⟨0, 5, 0⟩ ∨ p = ⟨0, 5, 0⟩ ∧ q = besideTop 5 c)
    (hlt : upperHalf.heading p < upperHalf.heading q) :
    (Segment.curve (.arc upperHalf)).intersect (.line (throughTop 5 c)) coincidentTol radiusTol
      = .ok (.crossing [p, q]) := by
  have hl := (built_throughTop c).made
  have hside : besideTop 5 c ∈ (throughTop 5 c).trace ∧
      besideTop 5 c ∈ (Curve.arc upperHalf).support.outline ∧
      (Curve.arc upperHalf).Spans coincidentTol (besideTop 5 c) :=
    ⟨besideTop_mem_throughTop 5 hc.le, besideTop_mem_outline c, hspans⟩
  have htop : (⟨0, 5, 0⟩ : Point ℝ) ∈ (throughTop 5 c).trace ∧
      (⟨0, 5, 0⟩ : Point ℝ) ∈ (Curve.arc upperHalf).support.outline ∧
      (Curve.arc upperHalf).Spans coincidentTol ⟨0, 5, 0⟩ :=
    ⟨top_mem_throughTop 5 c, mem_outline_upperHalf (by norm_num), upperHalf_spans (by norm_num)⟩
  have hband' : radiusTol ≤ |(throughTop 5 c).discriminant (.arc upperHalf)| := by
    rw [discriminant_throughTop]
    exact hband.trans (le_abs_self _)
  rcases hpair with ⟨rfl, rfl⟩ | ⟨rfl, rfl⟩
  · exact intersectCurve_eq_pair hl made_upperHalf radiusTol_pos hband' hside htop hlt
  · exact intersectCurve_eq_pair hl made_upperHalf radiusTol_pos hband' htop hside hlt

end Line

namespace Arc

open Line

variable {a : Arc ℝ} {p q : Point ℝ} {tol : ℝ} {r : Intersection ℝ}

/-! ## Which points are in order -/

/-- If only the second of two points lies before the start, the two are in order only by chance: they
are near one sample, or the arc ends near the second. -/
lemma Proper.inOrder_iff_of_precedes (ha : a.Proper) {ε : ℝ} (htol : 0 ≤ tol) (hε : tol ≤ ε)
    (hp : p ∈ (Curve.arc a).support.outline) (hq : q ∈ (Curve.arc a).support.outline)
    (hfirst : ¬ a.Precedes tol p) (hsecond : a.Precedes tol q) :
    (Segment.curve (.arc a)).InOrder ε p q ↔
      (∃ m ∈ (Segment.curve (.arc a)).samples, p.dist m ≤ ε ∧ q.dist m ≤ ε) ∨
        q.dist (a.center.around a.radius a.endAngle) ≤ ε := by
  have hle := ha.start_le_end
  have hstart : a.startAngle ≤ a.heading p := Angle.le_unwrapAfter _ _
  rw [inOrder_iff hle]
  simp only [Curve.mem_samples_iff (c := .arc a) hle]
  constructor
  · rintro ⟨θ, φ, hθ, hθφ, hφ, hpθ, hqφ⟩
    have hbefore := ha.heading_lt q
    have hpast : a.endAngle + tol / a.radius < a.heading q := hsecond
    have hslack := div_nonneg htol ha.radius_pos.le
    -- going round from the second point, the first sample, the second sample and the end follow
    rcases Point.dist_around_le_or a.center a.radius (κ := a.heading q - 2 * pi) (by linarith) hθφ hφ
      (by linarith) with hnear | hnear
    · rw [ha.around_heading_sub_turn hq] at hnear
      exact .inl ⟨_, ⟨θ, hθ, hθφ.trans hφ, rfl⟩, hpθ, hnear.trans hqφ⟩
    · rw [ha.around_heading_sub_turn hq] at hnear
      exact .inr (hnear.trans hqφ)
  · rintro (⟨_, ⟨θ, hθ, hθend, rfl⟩, hpθ, hqθ⟩ | hend)
    · exact ⟨θ, θ, hθ, le_rfl, hθend, hpθ, hqθ⟩
    · exact ⟨_, _, le_min hstart hle, min_le_right _ _, le_rfl,
        (ha.near_of_not_precedes htol hp hfirst).trans hε, hend⟩

/-- **Which pairs of points are reported in order.**  Two points that an arc shares with a line or a
circle, whichever comes first, are in order along the arc unless the second lies before the start and
the first does not.  In that case they are in order only if they are near one sample, or if the arc ends
near the second. -/
theorem crossings_inOrder_iff (ha : (Segment.curve (.arc a)).Built) {s : Segment ℝ} (hs : s.Built)
    (hkind : s.isArc = false)
    (hr : (Segment.curve (.arc a)).intersect s coincidentTol radiusTol = .ok r ∨
      s.intersect (.curve (.arc a)) coincidentTol radiusTol = .ok r) (hflag : r.flag = .plain)
    (hpoints : r.points = [p, q]) :
    (Segment.curve (.arc a)).InOrder (2 * coincidentTol) p q ↔
      (a.Precedes coincidentTol q → ¬ a.Precedes coincidentTol p →
        (∃ m ∈ (Segment.curve (.arc a)).samples,
          p.dist m ≤ 2 * coincidentTol ∧ q.dist m ≤ 2 * coincidentTol) ∨
        q.dist (a.center.around a.radius a.endAngle) ≤ 2 * coincidentTol) := by
  have htol : (0 : ℝ) ≤ coincidentTol := coincidentTol_pos.le
  have hε : (coincidentTol : ℝ) ≤ 2 * coincidentTol := by linarith
  have hproper := ha.arc
  have hle := hproper.start_le_end
  obtain ⟨hon, hordered⟩ := reported_spec ha hs hkind hr hflag
  rw [hpoints] at hon hordered
  obtain ⟨hp, hpspans⟩ := hon p List.mem_cons_self
  obtain ⟨hq, hqspans⟩ := hon q (List.mem_cons_of_mem _ List.mem_cons_self)
  have hheadings : a.heading p ≤ a.heading q := List.rel_of_pairwise_cons hordered List.mem_cons_self
  by_cases hsecond : a.Precedes coincidentTol q
  · by_cases hfirst : a.Precedes coincidentTol p
    · -- both are near the start
      refine iff_of_true ((inOrder_iff hle).mpr ⟨a.startAngle, a.startAngle, le_rfl, le_rfl, hle, ?_, ?_⟩)
        fun _ h => absurd hfirst h
      · exact (hproper.near_start_of_precedes hp hpspans hfirst).trans hε
      · exact (hproper.near_start_of_precedes hq hqspans hsecond).trans hε
    · rw [hproper.inOrder_iff_of_precedes htol hε hp hq hfirst hsecond]
      exact ⟨fun h _ _ => h, fun h => h hsecond hfirst⟩
  · have hfirst : ¬ a.Precedes coincidentTol p :=
      fun h => hsecond (lt_of_lt_of_le h hheadings)
    refine iff_of_true ((inOrder_iff hle).mpr ⟨min (a.heading p) a.endAngle,
      min (a.heading q) a.endAngle, le_min (Angle.le_unwrapAfter _ _) hle,
      min_le_min_right _ hheadings, min_le_right _ _, ?_, ?_⟩) fun h => absurd h hsecond
    · exact (hproper.near_of_not_precedes htol hp hfirst).trans hε
    · exact (hproper.near_of_not_precedes htol hq hsecond).trans hε

/-- A line from the side of a half circle through its top: both points are inside, and in order. -/
theorem crossings_inOrder_iff_inside :
    (Segment.curve (.arc upperHalf)).Built ∧ (Segment.line (throughTop 5 (1 / 2))).Built ∧
      (Segment.line (throughTop 5 (1 / 2))).isArc = false ∧
      (Segment.curve (.arc upperHalf)).intersect (.line (throughTop 5 (1 / 2))) coincidentTol
        radiusTol = .ok (.crossing [⟨4, 3, 0⟩, ⟨0, 5, 0⟩]) ∧
      (Intersection.crossing [(⟨4, 3, 0⟩ : Point ℝ), ⟨0, 5, 0⟩]).flag = .plain ∧
      (Segment.curve (.arc upperHalf)).InOrder (2 * coincidentTol) ⟨4, 3, 0⟩ ⟨0, 5, 0⟩ := by
  have hbuilt := built_throughTop (1 / 2)
  have hbeside : besideTop 5 (1 / 2) = ⟨4, 3, 0⟩ := by
    simp only [besideTop, Point.mk.injEq]
    norm_num
  have hlt : upperHalf.heading ⟨4, 3, 0⟩ < upperHalf.heading ⟨0, 5, 0⟩ := by
    rw [upperHalf_heading_top, upperHalf_heading_of_nonneg (by norm_num)]
    exact (abs_lt.mp (Complex.abs_arg_lt_pi_div_two_iff.mpr (.inl (by norm_num)))).2
  have hr := intersect_throughTop (by norm_num) (by rw [radiusTol_eq]; norm_num)
    (hbeside ▸ upperHalf_spans (by norm_num)) (.inl ⟨hbeside.symm, rfl⟩) hlt
  refine ⟨built_upperHalf, hbuilt, rfl, hr, rfl,
    (crossings_inOrder_iff built_upperHalf hbuilt rfl (.inl hr) rfl rfl).mpr fun hsecond => ?_⟩
  -- the top does not lie before the start
  rw [Precedes, upperHalf_heading_top, upperHalf_angles.2] at hsecond
  have hslack := div_nonneg coincidentTol_pos.le made_upperHalf.arc.radius_pos.le
  linarith [Real.pi_pos]

/-- **Points that are reported out of order.**  A line through the top of a half circle meets the circle
again just before the start.  That point is reported, after the top. -/
theorem crossings_out_of_order :
    (Segment.curve (.arc upperHalf)).Built ∧ (Segment.line (throughTop 5 1.000000001)).Built ∧
      (Segment.curve (.arc upperHalf)).intersect (.line (throughTop 5 1.000000001)) coincidentTol
        radiusTol = .ok (.crossing [⟨0, 5, 0⟩, besideTop 5 1.000000001]) ∧
      ¬ (Segment.curve (.arc upperHalf)).InOrder (2 * coincidentTol) ⟨0, 5, 0⟩
        (besideTop 5 1.000000001) := by
  have hspans : (Curve.arc upperHalf).Spans coincidentTol (besideTop 5 1.000000001) := by
    refine made_upperHalf.arc.spans_of_near_start (besideTop_mem_outline _) ?_
    have hstart : upperHalf.center.around upperHalf.radius upperHalf.startAngle = ⟨5, 0, 0⟩ := by
      rw [upperHalf_angles.1, upperHalf_radius]
      simp [Point.around, upperHalf, Arc.aboutOrigin]
    rw [hstart, coincidentTol_eq]
    calc pi / 2 * (besideTop 5 1.000000001).dist ⟨5, 0, 0⟩
        ≤ 2 * (5 * (1.000000001 - 1)) :=
          mul_le_mul (by linarith [Real.pi_le_four]) (besideTop_dist_le (by norm_num) (by norm_num))
            (Point.dist_nonneg _ _) zero_le_two
      _ ≤ 1e-8 := by norm_num
  have hlt : upperHalf.heading ⟨0, 5, 0⟩ < upperHalf.heading (besideTop 5 1.000000001) := by
    rw [upperHalf_heading_top]
    have hbelow : (besideTop 5 1.000000001).y < 0 := by norm_num [besideTop]
    linarith [lt_upperHalf_heading_of_neg hbelow, Real.pi_pos]
  refine ⟨built_upperHalf, built_throughTop _, ?_, not_inOrder_of_right ?_⟩
  · exact intersect_throughTop (by norm_num) (by rw [radiusTol_eq]; norm_num) hspans
      (.inr ⟨rfl, rfl⟩) hlt
  · rw [coincidentTol_eq]
    norm_num [besideTop]

end Arc

end Contour
