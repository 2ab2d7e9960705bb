import Contour.Proofs.ReportedPoints

/-!
# Where two lines meet

Two lines are compared by an angle, by a distance across and by distances along, each with the same
tolerance.  What is reported is taken on the first line, so how near it is to the second depends on how
the two lie to each other: lines that pass for parallel drift apart by the tolerance for every unit of
length.

* `Line.near_point_iff` — a point of a straight line is near the line iff the line reaches its parameter.
* `Line.straight_inter` — straight lines that are not parallel share one point.
* `Line.offset_stop_le` — how far off lines that pass for parallel end.
* `Line.Shares.edge_spec` — the run that parallel lines share, in order along the first.
* `Line.intersectCrossing_spec` — lines that cross report a point iff both come near the crossing.
* `Line.intersect_sound_complete` — what is reported of any two lines longer than the tolerance.
-/

namespace Contour

namespace Line

variable {a b l : Line ℝ} {tol : ℝ} {r : Intersection ℝ}

/-- The straight line through a line. -/
def straight (l : Line ℝ) : Set (Point ℝ) := Set.range l.point

lemma proper_of_lt_length (hl : (Segment.line l).Made) (h : tol < (Segment.line l).length) :
    l.Proper tol := ⟨hl.line.start_planar, hl.line.stop_planar, h⟩

lemma mag_eq_length (l : Line ℝ) : l.along.mag = (Segment.line l).length := mag_along l

/-- A point of a straight line is near the line iff the line reaches its parameter. -/
lemma near_point_iff (hmag : 0 < l.along.mag) (htol : 0 ≤ tol) (s : ℝ) :
    l.Near tol (l.point s) ↔ l.Reaches s tol := by
  constructor
  · rintro ⟨t, h0, h1, hnear⟩
    rw [dist_point, ← le_div_iff₀ hmag, abs_le] at hnear
    exact ⟨by linarith, by linarith⟩
  · intro hreaches
    have hnear := near_of_reaches hmag htol hreaches (Point.dist_self (l.point s)).le
    rwa [zero_add] at hnear

/-! ## Lines that cross -/

/-- A common point of two straight lines is at the parameter where they cross. -/
lemma eq_crossParam (hskew : a.skew b ≠ 0) {s t : ℝ} (h : a.point s = b.point t) :
    s = a.crossParam b := by
  have hx := congrArg Point.x h
  have hy := congrArg Point.y h
  rw [crossParam, eq_div_iff hskew]
  simp only [point, Point.lerp, skew, along, Point.crossXY, Point.sub] at hx hy ⊢
  linear_combination (b.stop.y - b.start.y) * hx - (b.stop.x - b.start.x) * hy

/-- **Straight lines that are not parallel share one point.** -/
lemma straight_inter (ha : a.Proper tol) (hb : b.Proper tol) (hskew : a.skew b ≠ 0) :
    a.straight ∩ b.straight = {a.point (a.crossParam b)} := by
  ext p
  rw [Set.mem_singleton_iff]
  constructor
  · rintro ⟨⟨s, rfl⟩, t, ht⟩
    rw [eq_crossParam hskew ht.symm]
  · rintro rfl
    exact ⟨⟨_, rfl⟩, _, (point_crossParam ha hb hskew).symm⟩

/-- A parameter on the line stays where it is when it is moved onto the line. -/
lemma clamp_eq_of_mem_trace (hmag : 0 < l.along.mag) {s : ℝ} (h : l.point s ∈ l.trace) :
    min (max s 0) 1 = s := by
  obtain ⟨t, h0, h1, hnear⟩ := near_of_mem_trace h le_rfl
  rw [dist_point, ← le_div_iff₀ hmag, zero_div] at hnear
  have hst : s = t := sub_eq_zero.mp (abs_eq_zero.mp (le_antisymm hnear (abs_nonneg _)))
  rw [hst, max_eq_left h0, min_eq_left h1]

/-- **Lines that cross report a point iff both of them come near the crossing.**  The point is near the
crossing, and the crossing itself if this lies on the first line. -/
lemma intersectCrossing_spec (ha : a.Proper tol) (hb : b.Proper tol) (htol : 0 ≤ tol)
    (hskew : a.skew b ≠ 0) (hr : a.intersectCrossing b tol = .ok r) :
    r.flag = .plain ∧
      (r.points ≠ [] ↔
        a.Near tol (a.point (a.crossParam b)) ∧ b.Near tol (a.point (a.crossParam b))) ∧
      ∀ p ∈ r.points, r.points = [p] ∧ p.dist (a.point (a.crossParam b)) ≤ tol ∧
        (a.point (a.crossParam b) ∈ a.trace → p = a.point (a.crossParam b)) := by
  have hmagA := ha.mag_pos htol
  have hmagB := hb.mag_pos htol
  have hnear : a.Near tol (a.point (a.crossParam b)) ∧ b.Near tol (a.point (a.crossParam b)) ↔
      a.Reaches (a.crossParam b) tol ∧ b.Reaches (b.crossParam a) tol := by
    rw [near_point_iff hmagA htol, point_crossParam ha hb hskew, near_point_iff hmagB htol]
  rw [hnear]
  rcases intersectCrossing_cases hmagA.ne' hmagB.ne' hskew tol with
    ⟨hreachA, hreachB, heq⟩ | ⟨hmiss, heq⟩
  · obtain rfl := Except.ok.inj (heq.symm.trans hr)
    refine ⟨rfl, iff_of_true (List.cons_ne_nil _ _) ⟨hreachA, hreachB⟩, fun p hp => ?_⟩
    obtain rfl := List.mem_singleton.mp hp
    refine ⟨rfl, dist_point_clamp hmagA htol hreachA, fun htrace => ?_⟩
    rw [clamp_eq_of_mem_trace hmagA htrace]
  · obtain rfl := Except.ok.inj (heq.symm.trans hr)
    exact ⟨rfl, iff_of_false (fun h => h rfl) hmiss, fun p hp => absurd hp List.not_mem_nil⟩

/-! ## Lines that pass for parallel -/

/-- **Lines that pass for parallel drift apart slowly.**  If the second starts within a tolerance of the
straight line through the first, it ends within that and the tolerance times its length. -/
lemma offset_stop_le (hmag : 0 < a.along.mag) (hpass : a.PassesForParallel b tol)
    (hoffset : a.offset b ≤ tol) : a.offset ⟨b.stop, b.start⟩ ≤ tol + tol * b.along.mag := by
  have hcross : a.along.crossXY (b.stop.sub a.start)
      = a.along.crossXY (b.start.sub a.start) + a.skew b := by
    simp only [skew, along, Point.crossXY, Point.sub]
    ring
  rw [offset, div_le_iff₀ hmag] at hoffset ⊢
  calc |a.along.crossXY (b.stop.sub a.start)|
      ≤ |a.along.crossXY (b.start.sub a.start)| + |a.skew b| := hcross ▸ abs_add_le _ _
    _ ≤ tol * a.along.mag + tol * a.along.mag * b.along.mag := add_le_add hoffset hpass
    _ = (tol + tol * b.along.mag) * a.along.mag := by ring

/-- **The run that parallel lines share** lies on the first line, in order, and is longer than the
tolerance. -/
lemma Shares.edge_spec (hmag : 0 < a.along.mag) (htol : 0 ≤ tol) (h : a.Shares b tol r)
    (hflag : r.flag = .edge) : ∃ u v, 0 ≤ u ∧ u < v ∧ v ≤ 1 ∧ r.points = [a.point u, a.point v] ∧
      tol < (a.point u).dist (a.point v) := by
  cases h with
  | miss => cases hflag
  | touch => cases hflag
  | run hoffset hlong =>
      have hlt : a.low b < a.high b := by
        rw [overlap] at hlong
        exact sub_pos.mp (pos_of_mul_pos_left (htol.trans_lt hlong) hmag.le)
      refine ⟨a.low b, a.high b, le_max_left 0 _, hlt, min_le_left 1 _, rfl, ?_⟩
      rwa [dist_point, abs_sub_comm, abs_of_pos (sub_pos.mpr hlt)]

/-! ## Any two lines -/

/-- **What is reported of two lines.**  Every point is within the tolerance of the first line, and
within the tolerance times two more than its length of the second.  The ends of a run are apart and in
order along the first line.  Lines that are not parallel by the test have straight lines with one common
point: a point is reported iff that one is within the tolerance of both lines, it is within the
tolerance of that one, and it is that one if that one lies on the first line. -/
theorem intersect_sound_complete (ha : (Segment.line a).Made) (hb : (Segment.line b).Made)
    (htol : 0 < tol) (hlengthA : tol < (Segment.line a).length)
    (hlengthB : tol < (Segment.line b).length) (radiusTol : ℝ) :
    ∃ r, (Segment.line a).intersect (.line b) tol radiusTol = .ok r ∧
      (∀ p ∈ r.points, a.Near tol p ∧ b.Near (tol * (2 + (Segment.line b).length)) p) ∧
      (r.flag = .edge → ∃ u v, 0 ≤ u ∧ u < v ∧ v ≤ 1 ∧ r.points = [a.point u, a.point v] ∧
        tol < (a.point u).dist (a.point v)) ∧
      (¬ a.PassesForParallel b tol → ∃ x, a.straight ∩ b.straight = {x} ∧ r.flag = .plain ∧
        (r.points ≠ [] ↔ a.Near tol x ∧ b.Near tol x) ∧
        ∀ p ∈ r.points, r.points = [p] ∧ p.dist x ≤ tol ∧ (x ∈ a.trace → p = x)) := by
  have hproperA := proper_of_lt_length ha hlengthA
  have hproperB := proper_of_lt_length hb hlengthB
  have hmagA := hproperA.mag_pos htol.le
  have hmagB := hproperB.mag_pos htol.le
  rw [← mag_eq_length b]
  by_cases hpass : a.PassesForParallel b tol
  · obtain ⟨r, hr, hshares⟩ := intersectParallel_shares hmagA.ne' b tol
    refine ⟨r, (intersect_of_parallel hpass).trans hr, fun p hp => ?_,
      hshares.edge_spec hmagA htol.le, fun h => absurd hpass h⟩
    obtain ⟨hfirst, hsecond⟩ := hshares.near hproperA hproperB htol.le hp
    obtain ⟨-, -, hoffset, -⟩ := (hshares.points hmagA htol.le).2 p hp
    have hdrift : tol ≤ tol + tol * b.along.mag :=
      le_add_of_nonneg_right (mul_nonneg htol.le hmagB.le)
    refine ⟨hfirst, (hsecond hdrift (offset_stop_le hmagA hpass hoffset)).mono ?_⟩
    linarith
  · have hskew := skew_ne_zero htol.le hpass
    obtain ⟨r, hr, -, hnear⟩ := crossing_near hproperA hproperB htol.le hskew
    obtain ⟨hflag, hfound, hpoint⟩ := intersectCrossing_spec hproperA hproperB htol.le hskew hr
    refine ⟨r, (intersect_of_not_parallel hpass).trans hr, fun p hp => ?_, fun h => ?_,
      fun _ => ⟨_, straight_inter hproperA hproperB hskew, hflag, hfound, hpoint⟩⟩
    · obtain ⟨hfirst, hsecond⟩ := hnear p hp
      refine ⟨hfirst, hsecond.mono ?_⟩
      linarith [mul_pos htol hmagB]
    · rw [hflag] at h
      cases h

/-- The second line passes a quarter beyond the end of the first.  With a tolerance of one half, a point
is reported, and it is near the crossing. -/
theorem intersect_sound_complete_beyond :
    (Segment.line (between 0 0 1 0)).Made ∧ (Segment.line (between 1.25 (-1) 1.25 1)).Made ∧
      (0 : ℝ) < 0.5 ∧ 0.5 < (Segment.line (between 0 0 1 0)).length ∧
      0.5 < (Segment.line (between 1.25 (-1) 1.25 1)).length ∧
      ∃ r p, (Segment.line (between 0 0 1 0)).intersect (.line (between 1.25 (-1) 1.25 1)) 0.5 radiusTol
          = .ok r ∧ r.points = [p] ∧ p.dist ⟨1.25, 0, 0⟩ ≤ 0.5 := by
  set a := between 0 0 1 0 with hadef
  set b := between 1.25 (-1) 1.25 1 with hbdef
  have ha : (Segment.line a).Made := (built_between (.inl (by
    rw [coincidentTol_eq]; norm_num [abs_of_nonneg]))).made
  have hb : (Segment.line b).Made := (built_between (.inr (by
    rw [coincidentTol_eq]; norm_num [abs_of_nonneg]))).made
  have hmagA : a.along.mag = 1 := by
    rw [hadef, mag_between]
    norm_num
  have hmagB : b.along.mag = 2 := by
    rw [hbdef, mag_between, Real.sqrt_eq_iff_mul_self_eq] <;> norm_num
  have hlengthA : 0.5 < (Segment.line a).length := by
    rw [← mag_eq_length, hmagA]
    norm_num
  have hlengthB : 0.5 < (Segment.line b).length := by
    rw [← mag_eq_length, hmagB]
    norm_num
  have hskew : a.skew b = 2 := by
    rw [hadef, hbdef, skew_between]
    norm_num
  have hpass : ¬ a.PassesForParallel b 0.5 := by
    rw [PassesForParallel, hskew, hmagA, hmagB]
    norm_num
  have hcrossA : a.point 1.25 = ⟨1.25, 0, 0⟩ := by norm_num [hadef, between, point, Point.lerp]
  have hcrossB : b.point 0.5 = ⟨1.25, 0, 0⟩ := by norm_num [hbdef, between, point, Point.lerp]
  obtain ⟨r, hr, -, -, hcross⟩ :=
    intersect_sound_complete ha hb (by norm_num : (0 : ℝ) < 0.5) hlengthA hlengthB radiusTol
  obtain ⟨x, hx, -, hfound, hpoint⟩ := hcross hpass
  have hmem : (⟨1.25, 0, 0⟩ : Point ℝ) ∈ a.straight ∩ b.straight := ⟨⟨_, hcrossA⟩, _, hcrossB⟩
  rw [hx, Set.mem_singleton_iff] at hmem
  subst hmem
  have hnear : a.Near 0.5 ⟨1.25, 0, 0⟩ ∧ b.Near 0.5 ⟨1.25, 0, 0⟩ := by
    refine ⟨⟨1, zero_le_one, le_rfl, ?_⟩, ⟨0.5, by norm_num, by norm_num, ?_⟩⟩
    · rw [← hcrossA, dist_point, hmagA]
      norm_num [abs_of_nonneg]
    · rw [hcrossB, Point.dist_self]
      norm_num
  obtain ⟨p, hp⟩ := List.exists_mem_of_ne_nil _ (hfound.mpr hnear)
  obtain ⟨hpoints, hdist, -⟩ := hpoint p hp
  exact ⟨ha, hb, by norm_num, hlengthA, hlengthB, r, p, hr, hpoints, hdist⟩

end Line

end Contour
