import Contour.Proofs.Acceptance
import Contour.Proofs.Exchange

/-!
# Where the points of an intersection are

An intersection takes its points from one segment, or from the circle of one.  This file says how they
lie to both.

* `Line.intersect_near` — points of two lines lie near the first, and near the second if it stays close
  to the straight line through the first.
* `Line.intersectCurve_on`, `Circle.intersect_on`, `Curve.intersectArcs_on` — points of a line and a
  curve, and of curves on different circles, lie on both.
* `Arc.overlap_spec` — points of arcs on one circle come from the ends of a long run, or from the middles
  of short ones.
-/

namespace Contour

/-! ## Where lines meet -/

/-- What lies between two numbers that are in order, or out of order by `δ` at most, lies within `δ`
of every range that starts below the first and stops above the second. -/
lemma widened_of_mem_uIcc {x y low high δ s : ℝ} (hlow : x ≤ low) (hhigh : high ≤ y)
    (hgap : low ≤ high + δ) (hδ : 0 ≤ δ) (hs : s ∈ Set.uIcc low high) : x - δ ≤ s ∧ s ≤ y + δ := by
  obtain ⟨hmin, hmax⟩ := hs
  constructor
  · refine le_trans ?_ hmin
    rw [le_inf_iff]
    constructor <;> linarith
  · refine hmax.trans ?_
    rw [sup_le_iff]
    constructor <;> linarith

/-- What lies within `δ` of a range lies within `δ` of a member. -/
lemma exists_mem_of_widened {x y δ s : ℝ} (hxy : x ≤ y) (hδ : 0 ≤ δ) (hlow : x - δ ≤ s)
    (hhigh : s ≤ y + δ) : ∃ t, x ≤ t ∧ t ≤ y ∧ |s - t| ≤ δ := by
  rcases le_total s x with hbefore | hafter
  · exact ⟨x, le_rfl, hxy, abs_le.mpr ⟨by linarith, by linarith⟩⟩
  · rcases le_total s y with hinside | hbeyond
    · exact ⟨s, hafter, hinside, by rwa [sub_self, abs_zero]⟩
    · exact ⟨y, hxy, le_rfl, abs_le.mpr ⟨by linarith, by linarith⟩⟩

namespace Line

variable {a b : Line ℝ} {tol ε : ℝ}

/-- What lies between the shadows of the ends of a line is the shadow of one of its points. -/
lemma exists_shadow_eq {s : ℝ} (hs : s ∈ Set.uIcc (a.shadow b.start) (a.shadow b.stop)) :
    ∃ u, 0 ≤ u ∧ u ≤ 1 ∧ a.shadow (b.point u) = s := by
  rw [← segment_eq_uIcc] at hs
  obtain ⟨v, u, hv, hu, hone, rfl⟩ := hs
  refine ⟨u, hu, by linarith, ?_⟩
  have hstop := shadow_point a b 1
  rw [point_one] at hstop
  rw [shadow_point, hstop, smul_eq_mul, smul_eq_mul]
  linear_combination (-a.shadow b.start) * hone

/-- Between its ends a line is no further off a straight line than at one of them. -/
lemma dist_shadow_point_le (ha : a.Proper tol) (hb : b.Proper tol) (htol : 0 ≤ tol) {u : ℝ}
    (h0 : 0 ≤ u) (h1 : u ≤ 1) (hstart : a.offset b ≤ ε) (hstop : a.offset ⟨b.stop, b.start⟩ ≤ ε) :
    (b.point u).dist (a.point (a.shadow (b.point u))) ≤ ε := by
  have hmag := ha.mag_pos htol
  have hplane : (b.point u).z = 0 := by simp [point, Point.lerp, hb.start_planar, hb.stop_planar]
  have hcross : a.along.crossXY ((b.point u).sub a.start)
      = (1 - u) * a.along.crossXY (b.start.sub a.start)
        + u * a.along.crossXY (b.stop.sub a.start) := by
    simp only [point, Point.lerp, Point.crossXY, Point.sub]
    ring
  rw [offset, div_le_iff₀ hmag] at hstart hstop
  rw [dist_shadow ha htol hplane, hcross, div_le_iff₀ hmag]
  calc |(1 - u) * a.along.crossXY (b.start.sub a.start) + u * a.along.crossXY (b.stop.sub a.start)|
      ≤ (1 - u) * |a.along.crossXY (b.start.sub a.start)|
        + u * |a.along.crossXY (b.stop.sub a.start)| := by
        refine (abs_add_le _ _).trans_eq ?_
        rw [abs_mul, abs_mul, abs_of_nonneg h0, abs_of_nonneg (sub_nonneg.mpr h1)]
    _ ≤ (1 - u) * (ε * a.along.mag) + u * (ε * a.along.mag) :=
        add_le_add (mul_le_mul_of_nonneg_left hstart (sub_nonneg.mpr h1))
          (mul_le_mul_of_nonneg_left hstop h0)
    _ = ε * a.along.mag := by ring

/-- **Where points of parallel lines are.**  They are points of the straight line through the first,
between the two ends of the run or, if these are out of order, close to them. -/
lemma Shares.points {r : Intersection ℝ} (hmag : 0 < a.along.mag) (htol : 0 ≤ tol)
    (h : a.Shares b tol r) : r.points.length ≤ 2 ∧ ∀ p ∈ r.points, ∃ s, p = a.point s ∧
      a.offset b ≤ tol ∧ a.low b ≤ a.high b + tol / a.along.mag ∧
      s ∈ Set.uIcc (a.low b) (a.high b) := by
  have horder : -tol ≤ a.overlap b → a.low b ≤ a.high b + tol / a.along.mag := fun hle => by
    rw [overlap, ← div_le_iff₀ hmag, neg_div] at hle
    linarith
  cases h with
  | miss => exact ⟨Nat.zero_le 2, fun p hp => absurd hp List.not_mem_nil⟩
  | touch hoffset hlow =>
      refine ⟨Nat.le_succ 1, fun p hp => ?_⟩
      rw [List.mem_singleton.mp hp]
      refine ⟨_, rfl, hoffset, horder hlow, ?_⟩
      rw [Set.mem_uIcc]
      rcases le_total (a.low b) (a.high b) with hle | hle
      · exact .inl ⟨by linarith, by linarith⟩
      · exact .inr ⟨by linarith, by linarith⟩
  | run hoffset hlow =>
      refine ⟨le_rfl, fun p hp => ?_⟩
      have horder' := horder (by linarith)
      rcases List.mem_pair.mp hp with rfl | rfl
      · exact ⟨_, rfl, hoffset, horder', Set.left_mem_uIcc⟩
      · exact ⟨_, rfl, hoffset, horder', Set.right_mem_uIcc⟩

/-- The points of parallel lines lie near the first, and near the second if it ends close to the
straight line through the first. -/
lemma Shares.near {r : Intersection ℝ} (ha : a.Proper tol) (hb : b.Proper tol) (htol : 0 ≤ tol)
    (h : a.Shares b tol r) {p : Point ℝ} (hp : p ∈ r.points) :
    a.Near tol p ∧ (tol ≤ ε → a.offset ⟨b.stop, b.start⟩ ≤ ε → b.Near (ε + tol) p) := by
  have hmag := ha.mag_pos htol
  have hslack : 0 ≤ tol / a.along.mag := div_nonneg htol hmag.le
  obtain ⟨s, rfl, hoffset, horder, hs⟩ := (h.points hmag htol).2 p hp
  constructor
  · obtain ⟨hlow, hhigh⟩ := widened_of_mem_uIcc (le_max_left 0 _) (min_le_left 1 _) horder hslack hs
    have hnear := near_of_reaches hmag htol ⟨by linarith, hhigh⟩ (Point.dist_self (a.point s)).le
    rwa [zero_add] at hnear
  · intro hle hstop
    obtain ⟨hlow, hhigh⟩ := widened_of_mem_uIcc (le_max_right 0 _) (min_le_right 1 _) horder hslack hs
    obtain ⟨t, hlow, hhigh, hnear⟩ := exists_mem_of_widened min_le_max hslack hlow hhigh
    obtain ⟨u, h0, h1, rfl⟩ := exists_shadow_eq ⟨hlow, hhigh⟩
    refine ⟨u, h0, h1, ?_⟩
    have hfirst : (a.point s).dist (a.point (a.shadow (b.point u))) ≤ tol := by
      rw [dist_point]
      exact (le_div_iff₀ hmag).mp hnear
    have hsecond := dist_shadow_point_le ha hb htol h0 h1 (hoffset.trans hle) hstop
    exact (Point.dist_le_of_near hfirst hsecond).trans_eq (add_comm _ _)

/-- The point where lines cross lies on the first and near the second. -/
lemma crossing_near (ha : a.Proper tol) (hb : b.Proper tol) (htol : 0 ≤ tol) (hskew : a.skew b ≠ 0) :
    ∃ r, a.intersectCrossing b tol = .ok r ∧ r.points.length ≤ 2 ∧
      ∀ p ∈ r.points, a.Near tol p ∧ b.Near (tol + tol) p := by
  have hmagA := ha.mag_pos htol
  have hmagB := hb.mag_pos htol
  rcases intersectCrossing_cases hmagA.ne' hmagB.ne' hskew tol with ⟨hreachA, hreachB, hr⟩ | ⟨-, hr⟩
  · refine ⟨_, hr, Nat.le_succ 1, fun p hp => ?_⟩
    rw [List.mem_singleton.mp hp]
    have hclamp := dist_point_clamp hmagA htol hreachA
    rw [point_crossParam ha hb hskew] at hclamp
    refine ⟨⟨min (max (a.crossParam b) 0) 1, le_min (le_max_right _ _) zero_le_one,
      min_le_right _ _, ?_⟩, near_of_reaches hmagB htol hreachB hclamp⟩
    rwa [Point.dist_self]
  · exact ⟨_, hr, Nat.zero_le 2, fun p hp => absurd hp List.not_mem_nil⟩

/-- **Where two lines meet.**  What is reported lies near the first, and near the second if the lines
cross, or if the second ends close to the straight line through the first. -/
lemma intersect_near (ha : a.Proper coincidentTol) (hb : b.Proper coincidentTol) :
    ∃ r, a.intersect b coincidentTol = .ok r ∧ r.points.length ≤ 2 ∧
      ∀ p ∈ r.points, a.Near radiusTol p ∧
        ((a.PassesForParallel b coincidentTol →
          a.offset ⟨b.stop, b.start⟩ ≤ radiusTol - coincidentTol) → b.Near radiusTol p) := by
  have htol := coincidentTol_pos.le
  have hsmall : (coincidentTol : ℝ) + coincidentTol ≤ radiusTol := by
    linarith [coincidentTol_small, radiusTol_pos]
  by_cases hparallel : a.PassesForParallel b coincidentTol
  · obtain ⟨r, hr, hshares⟩ := intersectParallel_shares (ha.mag_pos htol).ne' b coincidentTol
    rw [intersect_of_parallel hparallel]
    refine ⟨r, hr, (hshares.points (ha.mag_pos htol) htol).1, fun p hp => ?_⟩
    obtain ⟨hfirst, hsecond⟩ := hshares.near ha hb htol hp
    refine ⟨hfirst.mono (by linarith), fun hstop => ?_⟩
    exact (hsecond (by linarith) (hstop hparallel)).mono (sub_add_cancel _ _).le
  · have hskew := skew_ne_zero htol hparallel
    obtain ⟨r, hr, hcount, hnear⟩ := crossing_near ha hb htol hskew
    rw [intersect_of_not_parallel hparallel]
    refine ⟨r, hr, hcount, fun p hp => ?_⟩
    exact ⟨(hnear p hp).1.mono (by linarith), fun _ => (hnear p hp).2.mono hsmall⟩

end Line

/-! ## Where a line meets a curve -/

/-- What is reported of a line and a curve lies on both. -/
lemma Line.intersectCurve_on {l : Line ℝ} {c : Curve ℝ} (hl : (Segment.line l).Made)
    (hc : (Segment.curve c).Made) (slack radiusTol : ℝ) :
    ∃ r, l.intersectCurve c slack radiusTol = .ok r ∧ r.points.length ≤ 2 ∧
      ∀ p ∈ r.points, p ∈ l.trace ∧ p ∈ c.support.outline ∧ c.Spans slack p := by
  have h := hl.line
  rw [intersectCurve_eq h le_rfl]
  split_ifs with hband hneg
  · exact ⟨_, rfl, Nat.zero_le 2, fun p hp => absurd hp List.not_mem_nil⟩
  · exact ⟨_, rfl, Nat.zero_le 2, fun p hp => absurd hp List.not_mem_nil⟩
  · obtain ⟨selected, hselected, hperm⟩ := Curve.select_perm hc.support
      (l.pointsAt [l.highRoot c.center c.radius, l.lowRoot c.center c.radius]) slack
    rw [hselected]
    refine ⟨.crossing selected, rfl, ?_, fun p hp => ?_⟩
    · refine hperm.length_eq.trans_le ((List.length_filter_le _ _).trans ?_)
      rw [pointsAt, List.length_map]
      exact List.length_filter_le _ _
    · have hmem : p ∈ selected := hp
      rw [hperm.mem_iff, List.mem_filter, Curve.reaches_iff hc] at hmem
      obtain ⟨htrace, hout⟩ := (mem_pointsAt_iff h le_rfl hc.support (not_lt.mp hneg) p).mp hmem.1
      exact ⟨htrace, hout, hmem.2⟩

/-! ## Where curves on different circles meet -/

namespace Circle

variable {a b : Circle ℝ} {radiusTol : ℝ}

/-- Whatever holds of results without points holds in every position, if it holds of the result for
crossing circles. -/
lemma resolve_spec (htol : 0 < radiusTol) {P : Intersection ℝ → Prop}
    {crossing : Except (Fault ℝ) (Intersection ℝ)} (hempty : ∀ flag, P (.flagged flag))
    (hcross : |a.radius - b.radius| < a.center.dist b.center →
      a.center.dist b.center < a.radius + b.radius → ∃ r, crossing = .ok r ∧ P r) :
    ∃ r, resolve (a.position b radiusTol) crossing = .ok r ∧ P r := by
  have hplaced := placed a b htol
  revert hplaced
  generalize a.position b radiusTol = position
  intro hplaced
  cases position with
  | apart => exact ⟨_, rfl, hempty .plain⟩
  | related flag => exact ⟨_, rfl, hempty flag⟩
  | crossing =>
      cases hplaced with
      | crossing hlow hhigh => exact hcross hlow hhigh

/-- What is reported of two circles lies on both. -/
lemma intersect_on (ha : a.Proper) (hb : b.Proper) (htol : 0 < radiusTol) :
    ∃ r, a.intersect b radiusTol = .ok r ∧ r.points.length ≤ 2 ∧
      ∀ p ∈ r.points, p ∈ a.outline ∧ p ∈ b.outline := by
  refine resolve_spec htol
    (fun flag => ⟨Nat.zero_le 2, fun p hp => absurd hp List.not_mem_nil⟩) fun hlow hhigh => ?_
  obtain ⟨p, q, hcrossings, -, hmem⟩ := crossings_spec ha hb hlow hhigh
  refine ⟨.crossing [p, q], by rw [hcrossings]; rfl, le_rfl, fun s hs => ?_⟩
  have hboth : s ∈ a.outline ∩ b.outline := by
    rw [hmem]
    exact List.mem_pair.mp hs
  exact hboth

end Circle

/-- What is reported of curves on circles that the kernel tells apart lies on both. -/
lemma Curve.intersectArcs_on {c d : Curve ℝ} (hc : (Segment.curve c).Made)
    (hd : (Segment.curve d).Made) {radiusTol : ℝ} (htol : 0 < radiusTol)
    (hsame : ¬ c.support.same d.support radiusTol = true) (tol : ℝ) :
    ∃ r, c.intersectArcs d tol radiusTol = .ok r ∧ r.points.length ≤ 2 ∧
      ∀ p ∈ r.points, (p ∈ c.support.outline ∧ p ∈ d.support.outline) ∧
        c.Spans tol p ∧ d.Spans tol p := by
  unfold intersectArcs
  rw [if_neg hsame]
  refine Circle.resolve_spec htol
    (fun flag => ⟨Nat.zero_le 2, fun p hp => absurd hp List.not_mem_nil⟩) fun hlow hhigh => ?_
  obtain ⟨p, q, hcrossings, -, hmem⟩ := Circle.crossings_spec hc.support hd.support hlow hhigh
  rw [hcrossings]
  simp only [bind, Except.bind, pure, Except.pure, filterM_ok (bothCover_eq hc.support hd.support)]
  refine ⟨_, rfl, ?_, fun s hs => ?_⟩
  · exact (ordered_perm _ _).length_eq.trans_le (List.length_filter_le _ _)
  · have hkept := (ordered_perm _ _).mem_iff.mp hs
    rw [List.mem_filter, Bool.and_eq_true, reaches_iff hc, reaches_iff hd] at hkept
    have hboth : s ∈ c.support.outline ∩ d.support.outline := by
      rw [hmem]
      exact List.mem_pair.mp hkept.1
    exact ⟨hboth, hkept.2⟩

/-! ## Where arcs on one circle meet -/

namespace Arc

variable {a b : Arc ℝ} {tol : ℝ}

lemma pointAt_ok (a b : Arc ℝ) (shift angle tol : ℝ) : ∃ p, a.pointAt b shift angle tol = .ok p := by
  unfold pointAt
  dsimp only
  split
  · exact ⟨_, rfl⟩
  · exact ⟨_, Point.polar_eq _ _ _⟩

lemma touching_points {P : Point ℝ → Prop} {runs : List (Run ℝ)}
    (hpoint : ∀ run ∈ runs, ∃ p, a.pointAt b run.shift run.middle tol = .ok p ∧ P p) :
    ∃ points, a.touching b runs tol = .ok points ∧ points.length ≤ runs.length ∧
      ∀ p ∈ points, P p := by
  obtain ⟨points, hpoints, hall⟩ := mapM_ok hpoint
  have hsublist := merged_sublist tol points
  refine ⟨merged tol points, ?_, hsublist.length_le.trans_eq hall.length_eq, fun p hp => ?_⟩
  · unfold touching
    change (runs.mapM fun r => a.pointAt b r.shift r.middle tol) >>= _ = _
    rw [hpoints]
    rcases points with _ | ⟨p, _ | ⟨q, _ | ⟨s, rest⟩⟩⟩ <;> rfl
  · obtain ⟨run, -, hp⟩ := exists_of_forall₂ hall (hsublist.subset hp)
    exact hp

/-- **Where the points of arcs on one circle are.**  Whatever holds of the ends of the long runs, and of
the middles of the others, holds of all that is reported. -/
lemma overlap_spec {P : Point ℝ → Prop}
    (hedge : ∀ run ∈ a.edges b tol, ∀ angle ∈ [run.low, run.high],
      ∃ p, a.pointAt b run.shift angle tol = .ok p ∧ P p)
    (htouch : ∀ run ∈ a.runs b tol, run.size * a.radius ≤ tol →
      ∃ p, a.pointAt b run.shift run.middle tol = .ok p ∧ P p) :
    ∃ r, a.overlap b tol = .ok r ∧ r.points.length ≤ 2 ∧ ∀ p ∈ r.points, P p := by
  cases hbest : Run.greatest? (a.edges b tol) with
  | some run =>
      have hrun := (Run.greatest?_spec hbest).1
      obtain ⟨p, hp, hPp⟩ := hedge run hrun run.low List.mem_cons_self
      obtain ⟨q, hq, hPq⟩ := hedge run hrun run.high (List.mem_cons_of_mem _ List.mem_cons_self)
      rw [edges] at hbest
      refine ⟨.run p q, ?_, le_rfl, fun s hs => ?_⟩
      · simp only [overlap, hbest, hp, hq]
        rfl
      · rcases List.mem_pair.mp hs with rfl | rfl
        · exact hPp
        · exact hPq
  | none =>
      have hnone := Run.greatest?_eq_none.mp hbest
      have hshort : ∀ run ∈ a.runs b tol, run.size * a.radius ≤ tol := fun run hrun =>
        not_lt.mp fun hlong => by simpa [hnone] using mem_edges.mpr ⟨hrun, hlong⟩
      obtain ⟨points, hpoints, hcount, hP⟩ := touching_points fun run hrun =>
        htouch run hrun (hshort run hrun)
      have hperm := ordered_perm (fun p : Point ℝ =>
        Angle.unwrapAfter (p.angleXY (Curve.arc a).center) (Curve.arc a).startAngle) points
      rw [edges] at hbest
      refine ⟨.crossing ((Curve.arc a).orderAlong points), ?_, ?_, fun s hs => ?_⟩
      · simp only [overlap, hbest, hpoints]
        rfl
      · exact hperm.length_eq.trans_le (hcount.trans (length_runs_le a b tol))
      · exact hP s (hperm.mem_iff.mp hs)

end Arc

end Contour
