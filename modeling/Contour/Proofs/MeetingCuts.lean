import Contour.Proofs.ReportedPoints

/-!
# Splitting where segments meet

The points that two segments share are meant to be cut at, and a split refuses what lies off its
segment.  An intersection reports such points in two cases only: lines that pass for parallel may part,
and circles that pass for one may differ.  This file says by how much they may.

* `Arc.Borders`, `Arc.overlap_borders` — the points of two arcs are ends of one, in directions that the
  other spans.
* `Segment.Near`, `Segment.Built.contains_iff_near` — what a segment accepts, as distances and
  directions.
* `Segment.Meeting`, `Segment.intersect_meets` — the cases of an intersection with points.
* `Segment.split_at_meeting` — which splits at the reported points succeed.
* `Segment.Refuse`, `Segment.refused_at_meeting` — a circle and an arc, and two lines, that cannot be
  split.
-/

namespace Contour

open Real (pi)

/-! ## Arcs whose circles pass for one -/

namespace Arc

variable {a b : Arc ℝ} {p : Point ℝ} {e : ℝ × Point ℝ} {shift angle slack tol : ℝ}

/-- An end of an arc, in a direction that another one spans up to `slack`. -/
structure Borders (a b : Arc ℝ) (slack : ℝ) (p : Point ℝ) : Prop where
  mem_ends : p ∈ [a.start, a.stop]
  spanned : ∃ φ, (Curve.arc a).support.Stands radiusTol φ p ∧
    b.startAngle - slack ≤ φ ∧ φ ≤ b.endAngle + slack

/-- An arc sees both ends of another one. -/
def SeesEnds (b a : Arc ℝ) (slack : ℝ) : Prop :=
  ∀ p ∈ [a.start, a.stop], (Curve.arc b).support.Sees (Curve.arc a).support slack p

/-- Arcs on one circle see each other's ends. -/
lemma seesEnds_of_equal (ha : (Segment.curve (.arc a)).Built)
    (hequal : (Curve.arc a).support = (Curve.arc b).support) (hslack : a.radius * slack ≤ radiusTol) :
    b.SeesEnds a slack := by
  obtain ⟨hstart, hstop⟩ := ha.stored.ends_off_center
  intro p hp
  rw [← hequal]
  rcases List.mem_pair.mp hp with rfl | rfl
  · exact Circle.sees_self ha.sound.start_stands.near (coincidentTol_pos.trans hstart) hslack
  · exact Circle.sees_self ha.sound.stop_stands.near (coincidentTol_pos.trans hstop) hslack

lemma Borders.contains (ha : (Segment.curve (.arc a)).Built) (hb : (Segment.curve (.arc b)).Built)
    (h : a.Borders b slack p) (hsees : b.SeesEnds a slack) :
    (Curve.arc b).contains p radiusTol = .ok true := by
  obtain ⟨hmem, φ, hstands, hlow, hhigh⟩ := h
  exact contains_of_sees hb.made ha.support (hsees p hmem) hstands hlow hhigh

/-- The ends of two arcs at their angles, with the second arc moved. -/
noncomputable def endsWith (a b : Arc ℝ) (shift : ℝ) : List (ℝ × Point ℝ) :=
  [(a.startAngle, a.start), (a.endAngle, a.stop),
    (b.startAngle + shift, b.start), (b.endAngle + shift, b.stop)]

/-- Near an end of one of the arcs the point at an angle is an end. -/
lemma pointAt_of_near (he : e ∈ a.endsWith b shift) (hnear : |e.1 - angle| * a.radius ≤ tol) :
    ∃ e ∈ a.endsWith b shift, |e.1 - angle| * a.radius ≤ tol ∧
      a.pointAt b shift angle tol = .ok e.2 := by
  unfold pointAt
  dsimp only
  split
  · next e' hfind =>
      exact ⟨e', List.mem_of_find?_eq_some hfind, by simpa using List.find?_some hfind, rfl⟩
  · next hnone =>
      have hfar := List.find?_eq_none.mp hnone e he
      exact absurd hnear (by simpa using hfar)

lemma exists_end_low (a b : Arc ℝ) (shift : ℝ) :
    ∃ e ∈ a.endsWith b shift, e.1 = (a.common b shift).low := by
  rcases max_choice a.startAngle (b.startAngle + shift) with h | h
  · exact ⟨(a.startAngle, a.start), by simp [endsWith], h.symm⟩
  · exact ⟨(b.startAngle + shift, b.start), by simp [endsWith], h.symm⟩

lemma exists_end_high (a b : Arc ℝ) (shift : ℝ) :
    ∃ e ∈ a.endsWith b shift, e.1 = (a.common b shift).high := by
  rcases min_choice a.endAngle (b.endAngle + shift) with h | h
  · exact ⟨(a.endAngle, a.stop), by simp [endsWith], h.symm⟩
  · exact ⟨(b.endAngle + shift, b.stop), by simp [endsWith], h.symm⟩

/-- An end at an angle that both arcs span, one of them moved, is an end of one that the other spans. -/
lemma borders_of_mem (ha : a.Sound) (hb : b.Sound) (n : ℤ)
    (he : e ∈ a.endsWith b (n * (2 * pi)))
    (hfirst : a.startAngle - slack ≤ e.1 ∧ e.1 ≤ a.endAngle + slack)
    (hsecond : b.startAngle + n * (2 * pi) - slack ≤ e.1 ∧ e.1 ≤ b.endAngle + n * (2 * pi) + slack) :
    a.Borders b slack e.2 ∨ b.Borders a slack e.2 := by
  simp only [endsWith, List.mem_cons, List.not_mem_nil, or_false] at he
  rcases he with rfl | rfl | rfl | rfl
  · exact .inl ⟨List.mem_cons_self, _, ha.start_stands.sub_turns n, by linarith, by linarith⟩
  · exact .inl ⟨List.mem_cons_of_mem _ List.mem_cons_self, _, ha.stop_stands.sub_turns n,
      by linarith, by linarith⟩
  · exact .inr ⟨List.mem_cons_self, _, hb.start_stands.add_turns n, hfirst⟩
  · exact .inr ⟨List.mem_cons_of_mem _ List.mem_cons_self, _, hb.stop_stands.add_turns n, hfirst⟩

/-- Near an end of what two arcs share, the point at an angle is an end of one that the other spans. -/
lemma exists_pointAt_borders (ha : (Segment.curve (.arc a)).Built) (hb : (Segment.curve (.arc b)).Built)
    {run : Run ℝ} (hrun : run ∈ a.runs b coincidentTol) (hangle : angle ∈ Set.uIcc run.low run.high)
    (hends : |run.low - angle| * a.radius ≤ coincidentTol ∨
      |run.high - angle| * a.radius ≤ coincidentTol) :
    ∃ p, a.pointAt b run.shift angle coincidentTol = .ok p ∧
      (a.Borders b (2 * coincidentTol / a.radius) p ∨
        b.Borders a (2 * coincidentTol / a.radius) p) := by
  have hpos : 0 < a.radius := ha.arc.radius_pos
  have htol : 0 ≤ coincidentTol / a.radius := div_nonneg coincidentTol_pos.le hpos.le
  obtain ⟨hcommon, ⟨n, hn⟩, hsize⟩ := mem_runs hrun
  have horder : run.low ≤ run.high + coincidentTol / a.radius := by
    rw [Run.size, ← div_le_iff₀ hpos, neg_div] at hsize
    linarith
  obtain ⟨e, he, hclose⟩ : ∃ e ∈ a.endsWith b run.shift,
      |e.1 - angle| * a.radius ≤ coincidentTol := by
    rw [hcommon] at hends
    rcases hends with hlow | hhigh
    · obtain ⟨e, he, heq⟩ := exists_end_low a b run.shift
      exact ⟨e, he, heq ▸ hlow⟩
    · obtain ⟨e, he, heq⟩ := exists_end_high a b run.shift
      exact ⟨e, he, heq ▸ hhigh⟩
  obtain ⟨e, he, hclose, hp⟩ := pointAt_of_near he hclose
  refine ⟨e.2, hp, ?_⟩
  -- the end is within a tolerance of the angle, and the angle of what both arcs span
  have hfirst := widened_of_mem_uIcc (hcommon ▸ le_max_left _ _ : a.startAngle ≤ run.low)
    (hcommon ▸ min_le_left _ _ : run.high ≤ a.endAngle) horder htol hangle
  have hsecond := widened_of_mem_uIcc
    ((le_max_right _ _).trans_eq (congrArg Run.low hcommon).symm : b.startAngle + run.shift ≤ run.low)
    ((congrArg Run.high hcommon).trans_le (min_le_right _ _) : run.high ≤ b.endAngle + run.shift)
    horder htol hangle
  rw [← le_div_iff₀ hpos, abs_le] at hclose
  rw [hn] at he hsecond
  rw [mul_div_assoc, two_mul]
  exact borders_of_mem ha.sound hb.sound n he ⟨by linarith, by linarith⟩ ⟨by linarith, by linarith⟩

/-- The middle of a short run is near its ends. -/
lemma middle_near_low {run : Run ℝ} {radius : ℝ} (hpos : 0 < radius) (hlow : -tol ≤ run.size * radius)
    (hhigh : run.size * radius ≤ tol) : |run.low - run.middle| * radius ≤ tol := by
  have hsize : |run.size| * radius ≤ tol := by
    rw [← abs_of_pos hpos, ← abs_mul]
    exact abs_le.mpr ⟨hlow, hhigh⟩
  have hhalf : run.low - run.middle = -(run.size / 2) := by rw [Run.middle, Run.size]; ring
  have hnonneg : 0 ≤ |run.size| * radius := mul_nonneg (abs_nonneg _) hpos.le
  rw [hhalf, abs_neg, abs_div, abs_two]
  linarith

/-- **What is reported of two arcs are ends of one that the other spans**, whatever their circles
are. -/
lemma overlap_borders (ha : (Segment.curve (.arc a)).Built) (hb : (Segment.curve (.arc b)).Built) :
    ∃ r, a.overlap b coincidentTol = .ok r ∧ r.points.length ≤ 2 ∧ ∀ p ∈ r.points,
      a.Borders b (2 * coincidentTol / a.radius) p ∨ b.Borders a (2 * coincidentTol / a.radius) p := by
  have hself : ∀ angle : ℝ, |angle - angle| * a.radius ≤ coincidentTol := fun angle => by
    rw [sub_self, abs_zero, zero_mul]
    exact coincidentTol_pos.le
  refine overlap_spec (fun run hrun angle hangle => ?_) fun run hrun hshort => ?_
  · have hmem := (mem_edges.mp hrun).1
    rcases List.mem_pair.mp hangle with rfl | rfl
    · exact exists_pointAt_borders ha hb hmem Set.left_mem_uIcc (.inl (hself _))
    · exact exists_pointAt_borders ha hb hmem Set.right_mem_uIcc (.inr (hself _))
  · have hmiddle := middle_near_low ha.arc.radius_pos (mem_runs hrun).2.2 hshort
    exact exists_pointAt_borders ha hb hrun run.middle_mem (.inl hmiddle)

end Arc

/-! ## What a segment accepts -/

namespace Segment

variable {a b s : Segment ℝ} {l m : Line ℝ} {c d : Curve ℝ} {k : Circle ℝ} {p : Point ℝ}
  {points : List (Point ℝ)}

/-- A point lies within the tolerance for splits: of some point of a line, or of the circle of a curve in
a direction that the curve spans. -/
def Near : Segment ℝ → Point ℝ → Prop
  | line l, p => l.Near radiusTol p
  | curve c, p => |p.dist c.center - c.radius| ≤ radiusTol ∧ c.Spans radiusTol p

lemma Built.contains_iff_near (hs : s.Built) : s.contains p radiusTol = .ok true ↔ s.Near p := by
  cases s with
  | line l => exact Line.contains_iff_near (hs.line.mag_pos coincidentTol_pos.le)
  | curve c => exact Curve.contains_iff hs.made

def SplitsAt (s : Segment ℝ) (points : List (Point ℝ)) : Prop :=
  ∃ pieces, s.split points radiusTol = .ok pieces

/-- A segment can be split at one or two points if they are near, and at no other ones. -/
lemma Built.splitsAt_iff (hs : s.Built) (hne : points ≠ []) (hcount : points.length ≤ 2) :
    s.SplitsAt points ↔ ∀ p ∈ points, s.Near p := by
  have hpositive := List.length_pos_iff.mpr hne
  refine hs.sound.split_ok_iff.trans ((and_iff_right (by omega)).trans ?_)
  exact forall₂_congr fun p _ => hs.contains_iff_near

/-- Curves on different circles that pass for one. -/
def PassForOne (c d : Curve ℝ) : Prop :=
  c.support.same d.support radiusTol = true ∧ c.support ≠ d.support

/-! ## Segments that meet -/

/-- **The cases of an intersection.**  Both segments fit the reported points, unless they are lines that
pass for parallel, or curves on circles that pass for one. -/
inductive Meeting (fits : Segment ℝ → Prop) (points : List (Point ℝ)) :
    Segment ℝ → Segment ℝ → Prop where
  | plain {a b : Segment ℝ} (hfirst : fits a) (hsecond : fits b) : Meeting fits points a b
  /-- Of two lines the first fits, and the second one does if it ends close to the straight line through
  the first. -/
  | parallel {l m : Line ℝ} (h : l.PassesForParallel m coincidentTol) (hfirst : fits (line l))
      (hsecond : l.offset ⟨m.stop, m.start⟩ ≤ radiusTol - coincidentTol → fits (line m)) :
      Meeting fits points (line l) (line m)
  /-- An arc and a circle have the ends of the arc.  The arc fits, and the circle does iff they are near
  it. -/
  | encircled {a : Arc ℝ} {k : Circle ℝ} (h : PassForOne (.arc a) (.circle k))
      (hends : points = [a.start, a.stop]) (harc : fits (curve (.arc a)))
      (hcircle : fits (curve (.circle k)) ↔
        ∀ p ∈ [a.start, a.stop], |p.dist k.center - k.radius| ≤ radiusTol) :
      Meeting fits points (curve (.arc a)) (curve (.circle k))
  | encircling {a : Arc ℝ} {k : Circle ℝ} (h : PassForOne (.circle k) (.arc a))
      (hends : points = [a.start, a.stop]) (harc : fits (curve (.arc a)))
      (hcircle : fits (curve (.circle k)) ↔
        ∀ p ∈ [a.start, a.stop], |p.dist k.center - k.radius| ≤ radiusTol) :
      Meeting fits points (curve (.circle k)) (curve (.arc a))
  /-- Two arcs have ends of theirs, each near the arc that it comes from.  Both arcs fit if each of them
  sees the ends of the other. -/
  | arcs {a b : Arc ℝ} (h : PassForOne (.arc a) (.arc b))
      (hends : ∀ p ∈ points, p ∈ [a.start, a.stop] ∧ Near (curve (.arc a)) p ∨
        p ∈ [b.start, b.stop] ∧ Near (curve (.arc b)) p)
      (hseen : b.SeesEnds a (2 * coincidentTol / a.radius) →
        a.SeesEnds b (2 * coincidentTol / a.radius) →
        fits (curve (.arc a)) ∧ fits (curve (.arc b))) :
      Meeting fits points (curve (.arc a)) (curve (.arc b))

lemma Meeting.congr {fits fits' : Segment ℝ → Prop} (hfirst : fits a ↔ fits' a)
    (hsecond : fits b ↔ fits' b) (h : Meeting fits points a b) : Meeting fits' points a b := by
  cases h with
  | plain ha hb => exact .plain (hfirst.mp ha) (hsecond.mp hb)
  | parallel h hl hm => exact .parallel h (hfirst.mp hl) fun hoffset => hsecond.mp (hm hoffset)
  | encircled h hends harc hcircle =>
      exact .encircled h hends (hfirst.mp harc) (hsecond.symm.trans hcircle)
  | encircling h hends harc hcircle =>
      exact .encircling h hends (hsecond.mp harc) (hfirst.symm.trans hcircle)
  | arcs h hends hseen =>
      exact .arcs h hends fun hb ha => (hseen hb ha).imp hfirst.mp hsecond.mp

/-- What is known of two segments when the result of their intersection is. -/
structure Meets (a b : Segment ℝ) (r : Intersection ℝ) : Prop where
  length_le : r.points.length ≤ 2
  meeting : Meeting (fun s => ∀ p ∈ r.points, s.Near p) r.points a b

lemma Meets.of_both {r : Intersection ℝ} (hcount : r.points.length ≤ 2)
    (h : ∀ p ∈ r.points, a.Near p ∧ b.Near p) : a.Meets b r :=
  ⟨hcount, .plain (fun p hp => (h p hp).1) fun p hp => (h p hp).2⟩

lemma line_line_meets (hl : Built (line l)) (hm : Built (line m)) :
    ∃ r, l.intersect m coincidentTol = .ok r ∧ Meets (line l) (line m) r := by
  obtain ⟨r, hr, hcount, hnear⟩ := Line.intersect_near hl.line hm.line
  refine ⟨r, hr, hcount, ?_⟩
  by_cases hparallel : l.PassesForParallel m coincidentTol
  · exact .parallel hparallel (fun p hp => (hnear p hp).1) fun hoffset p hp =>
      (hnear p hp).2 fun _ => hoffset
  · exact .plain (fun p hp => (hnear p hp).1) fun p hp =>
      (hnear p hp).2 fun h => absurd h hparallel

/-- What lies on a curve is near it. -/
lemma near_of_mem_outline (hc : Built (curve c)) (hp : p ∈ c.support.outline)
    (hspans : c.Spans coincidentTol p) : Near (curve c) p := by
  have hle : (coincidentTol : ℝ) ≤ radiusTol := by linarith [coincidentTol_small, radiusTol_pos]
  exact hc.contains_iff_near.mp
    (Curve.contains_of_mem_outline hc.made hp radiusTol_pos.le (hspans.mono hc.support hle))

/-- A line and a curve are near what is reported of them, whichever is asked first. -/
lemma line_curve_near (hl : Built (line l)) (hc : Built (curve c)) :
    ∃ r, l.intersectCurve c coincidentTol radiusTol = .ok r ∧ r.points.length ≤ 2 ∧
      ∀ p ∈ r.points, Near (line l) p ∧ Near (curve c) p := by
  obtain ⟨r, hr, hcount, hon⟩ := Line.intersectCurve_on hl.made hc.made coincidentTol radiusTol
  refine ⟨r, hr, hcount, fun p hp => ?_⟩
  obtain ⟨htrace, hout, hspans⟩ := hon p hp
  exact ⟨Line.near_of_mem_trace htrace radiusTol_pos.le, near_of_mem_outline hc hout hspans⟩

/-! ## Curves whose circles pass for one -/

lemma near_ends {a : Arc ℝ} (ha : Built (curve (.arc a))) :
    ∀ p ∈ [a.start, a.stop], Near (curve (.arc a)) p := fun p hp =>
  ha.contains_iff_near.mp (Arc.contains_ends ha p hp)

/-- The ends of an arc are near a circle iff their distances are. -/
lemma near_circle_iff : (∀ p ∈ points, Near (curve (.circle k)) p) ↔
    ∀ p ∈ points, |p.dist k.center - k.radius| ≤ radiusTol :=
  forall₂_congr fun _ _ => and_iff_left trivial

/-- The ends of an arc on a circle are near the circle. -/
lemma near_circle_of_equal {a : Arc ℝ} (ha : Built (curve (.arc a)))
    (hequal : (Curve.arc a).support = k) : ∀ p ∈ [a.start, a.stop], Near (curve (.circle k)) p := by
  subst hequal
  exact near_circle_iff.mpr fun p hp => (near_ends ha p hp).1

lemma arc_arc_meets {a b : Arc ℝ} (ha : Built (curve (.arc a))) (hb : Built (curve (.arc b)))
    (hsame : (Curve.arc a).support.same (Curve.arc b).support radiusTol = true) :
    ∃ r, a.overlap b coincidentTol = .ok r ∧ Meets (curve (.arc a)) (curve (.arc b)) r := by
  obtain ⟨r, hr, hcount, hborders⟩ := Arc.overlap_borders ha hb
  have hends : ∀ p ∈ r.points, p ∈ [a.start, a.stop] ∧ Near (curve (.arc a)) p ∨
      p ∈ [b.start, b.stop] ∧ Near (curve (.arc b)) p := fun p hp =>
    (hborders p hp).imp (fun h => ⟨h.mem_ends, near_ends ha p h.mem_ends⟩)
      fun h => ⟨h.mem_ends, near_ends hb p h.mem_ends⟩
  have hseen : b.SeesEnds a (2 * coincidentTol / a.radius) →
      a.SeesEnds b (2 * coincidentTol / a.radius) →
      (∀ p ∈ r.points, Near (curve (.arc a)) p) ∧ ∀ p ∈ r.points, Near (curve (.arc b)) p := by
    refine fun hfirst hsecond => forall₂_and.mp fun p hp => ?_
    rcases hborders p hp with h | h
    · exact ⟨near_ends ha p h.mem_ends, hb.contains_iff_near.mp (h.contains ha hb hfirst)⟩
    · exact ⟨ha.contains_iff_near.mp (h.contains hb ha hsecond), near_ends hb p h.mem_ends⟩
  refine ⟨r, hr, hcount, ?_⟩
  by_cases hequal : (Curve.arc a).support = (Curve.arc b).support
  · have hslack : a.radius * (2 * coincidentTol / a.radius) ≤ radiusTol := by
      rw [mul_div_cancel₀ _ ha.arc.radius_pos.ne']
      linarith [coincidentTol_small, radiusTol_pos]
    have hradius : b.radius = a.radius := (congrArg Circle.radius hequal).symm
    obtain ⟨hfirst, hsecond⟩ := hseen (Arc.seesEnds_of_equal ha hequal hslack)
      (Arc.seesEnds_of_equal hb hequal.symm (by rwa [hradius]))
    exact .plain hfirst hsecond
  · exact .arcs ⟨hsame, hequal⟩ hends hseen

/-- **Curves whose circles pass for one.**  The ends of an arc are all that it shares with a circle. -/
lemma same_meets (hc : Built (curve c)) (hd : Built (curve d))
    (harc : c.isArc = true ∨ d.isArc = true) (hsame : c.support.same d.support radiusTol = true) :
    ∃ r, c.intersectSame d coincidentTol = .ok r ∧ Meets (curve c) (curve d) r := by
  cases c with
  | circle k =>
      cases d with
      | circle k' => simp [Curve.isArc] at harc
      | arc a =>
          refine ⟨.run a.start a.stop, rfl, le_rfl, ?_⟩
          by_cases hequal : (Curve.arc a).support = k
          · exact .plain (near_circle_of_equal hd hequal) (near_ends hd)
          · exact .encircling ⟨hsame, fun h => hequal h.symm⟩ rfl (near_ends hd) near_circle_iff
  | arc a =>
      cases d with
      | circle k =>
          refine ⟨.run a.start a.stop, rfl, le_rfl, ?_⟩
          by_cases hequal : (Curve.arc a).support = k
          · exact .plain (near_ends hc) (near_circle_of_equal hc hequal)
          · exact .encircled ⟨hsame, hequal⟩ rfl (near_ends hc) near_circle_iff
      | arc b => exact arc_arc_meets hc hd hsame

/-- Curves of which one at least is an arc. -/
lemma arcs_meets (hc : Built (curve c)) (hd : Built (curve d))
    (harc : c.isArc = true ∨ d.isArc = true) :
    ∃ r, c.intersectArcs d coincidentTol radiusTol = .ok r ∧ Meets (curve c) (curve d) r := by
  by_cases hsame : c.support.same d.support radiusTol = true
  · obtain ⟨r, hr, hmeets⟩ := same_meets hc hd harc hsame
    exact ⟨r, (if_pos hsame).trans hr, hmeets⟩
  · obtain ⟨r, hr, hcount, hon⟩ :=
      Curve.intersectArcs_on hc.made hd.made radiusTol_pos hsame coincidentTol
    refine ⟨r, hr, .of_both hcount fun p hp => ?_⟩
    obtain ⟨⟨hcOn, hdOn⟩, hcSpans, hdSpans⟩ := hon p hp
    exact ⟨near_of_mem_outline hc hcOn hcSpans, near_of_mem_outline hd hdOn hdSpans⟩

lemma curve_curve_meets (hc : Built (curve c)) (hd : Built (curve d)) :
    ∃ r, c.intersect d coincidentTol radiusTol = .ok r ∧ Meets (curve c) (curve d) r := by
  cases c with
  | arc a => exact arcs_meets hc hd (.inl rfl)
  | circle k =>
      cases d with
      | arc b => exact arcs_meets hc hd (.inr rfl)
      | circle k' =>
          obtain ⟨r, hr, hcount, hon⟩ := Circle.intersect_on hc.support hd.support radiusTol_pos
          refine ⟨r, hr, .of_both hcount fun p hp => ?_⟩
          obtain ⟨hfirst, hsecond⟩ := hon p hp
          exact ⟨near_of_mem_outline hc hfirst trivial, near_of_mem_outline hd hsecond trivial⟩

/-- **Every intersection is one of the cases**, for all kinds of segments. -/
lemma intersect_meets (ha : a.Built) (hb : b.Built) :
    ∃ r, a.intersect b coincidentTol radiusTol = .ok r ∧ a.Meets b r := by
  cases a with
  | line l =>
      cases b with
      | line m => exact line_line_meets ha hb
      | curve c =>
          obtain ⟨r, hr, hcount, hboth⟩ := line_curve_near ha hb
          exact ⟨r, hr, .of_both hcount hboth⟩
  | curve c =>
      cases b with
      | line l =>
          obtain ⟨r, hr, hcount, hboth⟩ := line_curve_near hb ha
          exact ⟨r, hr, .of_both hcount fun p hp => (hboth p hp).symm⟩
      | curve d => exact curve_curve_meets ha hb

/-- **Splitting where segments meet.**  An intersection of built segments always has a result, of at
most two points.  If there are any, each segment can be split at them exactly when they are near it.
Both segments can, unless they are lines that pass for parallel, or curves on circles that pass for one:
then a line that is asked first can, and an arc that meets a circle, and the bounds within which the
other segment can are those of the cases. -/
theorem split_at_meeting (ha : a.Built) (hb : b.Built) :
    ∃ r, a.intersect b coincidentTol radiusTol = .ok r ∧ r.points.length ≤ 2 ∧
      (r.points ≠ [] →
        (a.SplitsAt r.points ↔ ∀ p ∈ r.points, a.Near p) ∧
        (b.SplitsAt r.points ↔ ∀ p ∈ r.points, b.Near p) ∧
        Meeting (fun s => s.SplitsAt r.points) r.points a b) := by
  obtain ⟨r, hr, hcount, hmeeting⟩ := intersect_meets ha hb
  refine ⟨r, hr, hcount, fun hne => ?_⟩
  have hfirst := ha.splitsAt_iff hne hcount
  have hsecond := hb.splitsAt_iff hne hcount
  exact ⟨hfirst, hsecond, hmeeting.congr hfirst.symm hsecond.symm⟩

end Segment

/-! ## A circle and half of one around it -/

namespace Circle

variable {r δ : ℝ}

/-- A circle around the one of radius `r` about the origin, which it touches in its leftmost point. -/
noncomputable def around (r δ : ℝ) : Circle ℝ := ⟨⟨δ, 0, 0⟩, r + δ⟩

/-- The upper half of the circle around. -/
noncomputable def halfAround (r δ : ℝ) : Arc ℝ := (around r δ).arcBetween ⟨r + δ + δ, 0, 0⟩ ⟨-r, 0, 0⟩

lemma built_halfAround (hr : 2 * coincidentTol < r) (hδ : 0 ≤ δ) :
    (Segment.curve (.arc (halfAround r δ))).Built := by
  have hpos : 0 < r := (mul_pos two_pos coincidentTol_pos).trans hr
  have hproper : (around r δ).Proper := ⟨rfl, add_pos_of_pos_of_nonneg hpos hδ⟩
  have hfirst : ⟨r + δ + δ, 0, 0⟩ ∈ (around r δ).outline := by
    refine ⟨rfl, (Point.dist_eq_iff hproper.radius_pos.le).mpr ?_⟩
    simp only [around]
    ring
  have hlast : ⟨-r, 0, 0⟩ ∈ (around r δ).outline := by
    refine ⟨rfl, (Point.dist_eq_iff hproper.radius_pos.le).mpr ?_⟩
    simp only [around]
    ring
  refine built_arcBetween hproper hfirst hlast (hr.trans_le (le_add_of_nonneg_right hδ)) ?_
  have hdist : (⟨r + δ + δ, 0, 0⟩ : Point ℝ).dist ⟨-r, 0, 0⟩ = 2 * (r + δ) :=
    (Point.dist_eq_iff (by linarith)).mpr (by ring)
  refine Point.agrees_eq_false ?_
  rw [hdist]
  linarith

/-- The two are intersected as if they lay on one circle, so the ends of the half are reported. -/
lemma intersect_halfAround (h0 : 0 ≤ δ) (hδ : δ < radiusTol) :
    Segment.intersect (.curve (.circle (Line.aboutOrigin r))) (.curve (.arc (halfAround r δ)))
      coincidentTol radiusTol = .ok (.run ⟨r + δ + δ, 0, 0⟩ ⟨-r, 0, 0⟩) := by
  have hsame : (Line.aboutOrigin r).same (around r δ) radiusTol = true := by
    simp [same, Point.agrees, Line.aboutOrigin, around, abs_of_nonneg h0, hδ, hδ.le, radiusTol_pos.le]
  exact if_pos hsame

/-- The first end of the half is twice as far off the inner circle as the centers are apart. -/
lemma dist_halfAround (hr : 0 ≤ r) (hδ : 0 ≤ δ) :
    |(⟨r + δ + δ, 0, 0⟩ : Point ℝ).dist (Line.aboutOrigin r).center - (Line.aboutOrigin r).radius|
      = 2 * δ := by
  have hdist : (⟨r + δ + δ, 0, 0⟩ : Point ℝ).dist ⟨0, 0, 0⟩ = r + δ + δ :=
    Point.dist_origin (by linarith) (by ring)
  rw [Line.aboutOrigin, hdist, abs_of_nonneg (by linarith)]
  ring

end Circle

namespace Segment

/-- The first end of the half is as far off the circle as the tolerance allows, and both can be split
where they meet. -/
theorem split_at_meeting_halfAround :
    Built (curve (.circle (Line.aboutOrigin 5))) ∧ Built (curve (.arc (Circle.halfAround 5 0.0005))) ∧
      ∃ r, intersect (curve (.circle (Line.aboutOrigin 5))) (curve (.arc (Circle.halfAround 5 0.0005)))
          coincidentTol radiusTol = .ok r ∧ r.points = [⟨5 + 0.0005 + 0.0005, 0, 0⟩, ⟨-5, 0, 0⟩] ∧
        SplitsAt (curve (.circle (Line.aboutOrigin 5))) r.points ∧
        SplitsAt (curve (.arc (Circle.halfAround 5 0.0005))) r.points := by
  have hwide : 2 * coincidentTol < (5 : ℝ) := by rw [coincidentTol_eq]; norm_num
  have hcircle : Built (curve (.circle (Line.aboutOrigin 5))) :=
    Line.built_aboutOrigin (by linarith [coincidentTol_pos])
  have harc : Built (curve (.arc (Circle.halfAround 5 0.0005))) :=
    Circle.built_halfAround hwide (by norm_num)
  obtain ⟨r, hr, -, hsplits⟩ := split_at_meeting hcircle harc
  have hpoints : r.points = [⟨5 + 0.0005 + 0.0005, 0, 0⟩, ⟨-5, 0, 0⟩] := by
    rw [Circle.intersect_halfAround (by norm_num) (by rw [radiusTol_eq]; norm_num)] at hr
    rw [← Except.ok.inj hr]
    rfl
  obtain ⟨-, -, hmeeting⟩ := hsplits (by rw [hpoints]; exact List.cons_ne_nil _ _)
  refine ⟨hcircle, harc, r, hr, hpoints, ?_⟩
  cases hmeeting with
  | plain hfirst hsecond => exact ⟨hfirst, hsecond⟩
  | encircling h hends hsecond hfirst =>
      refine ⟨hfirst.mpr fun p hp => ?_, hsecond⟩
      rcases List.mem_pair.mp hp with rfl | rfl
      · exact (Circle.dist_halfAround (by norm_num) (by norm_num)).trans_le
          (by rw [radiusTol_eq]; norm_num)
      · have hdist : (⟨-5, 0, 0⟩ : Point ℝ).dist ⟨0, 0, 0⟩ = 5 :=
          Point.dist_origin (by norm_num) (by norm_num)
        show |(⟨-5, 0, 0⟩ : Point ℝ).dist ⟨0, 0, 0⟩ - 5| ≤ radiusTol
        rw [hdist, sub_self, abs_zero]
        exact radiusTol_pos.le

end Segment

/-! ## Where a split is refused -/

/-- Segments that meet but cannot both be split where they are said to. -/
def Segment.Refuse (a b : Segment ℝ) : Prop :=
  a.Built ∧ b.Built ∧ ∃ r, a.intersect b coincidentTol radiusTol = .ok r ∧ r.points ≠ [] ∧
    ¬ (a.SplitsAt r.points ∧ b.SplitsAt r.points)

/-- Built segments refuse each other if a reported point is not near one of them. -/
lemma Segment.refuse_of_not_near {a b s : Segment ℝ} {r : Intersection ℝ} {p : Point ℝ}
    (ha : a.Built) (hb : b.Built) (hr : a.intersect b coincidentTol radiusTol = .ok r)
    (hp : p ∈ r.points) (hs : s = a ∨ s = b) (hnot : ¬ s.Near p) : a.Refuse b := by
  refine ⟨ha, hb, r, hr, List.ne_nil_of_mem hp, fun ⟨hfirst, hsecond⟩ => hnot ?_⟩
  rcases hs with rfl | rfl
  · exact ha.contains_iff_near.mp ((ha.sound.split_ok_iff.mp hfirst).2 p hp)
  · exact hb.contains_iff_near.mp ((hb.sound.split_ok_iff.mp hsecond).2 p hp)

/-- **Circles that pass for one.**  The first end of the half is nearly twice as far from the inner circle
as the tolerance allows. -/
lemma Circle.refuse_halfAround : Segment.Refuse (.curve (.circle (Line.aboutOrigin 5)))
    (.curve (.arc (halfAround 5 0.0009))) := by
  have hwide : 2 * coincidentTol < (5 : ℝ) := by rw [coincidentTol_eq]; norm_num
  have hclose : (0.0009 : ℝ) < radiusTol := by rw [radiusTol_eq]; norm_num
  refine Segment.refuse_of_not_near (Line.built_aboutOrigin (by linarith [coincidentTol_pos]))
    (built_halfAround hwide (by norm_num)) (intersect_halfAround (by norm_num) hclose)
    List.mem_cons_self (.inl rfl) ?_
  rintro ⟨hnear, -⟩
  have hoff := (dist_halfAround (by norm_num) (by norm_num)).symm.trans_le hnear
  rw [radiusTol_eq] at hoff
  norm_num at hoff

namespace Line

noncomputable def level : Line ℝ := between 0 0 1000000 0

/-- A line a million long that rises by five thousandths. -/
noncomputable def rising : Line ℝ := between 0 0 1000000 0.005

lemma mag_level : level.along.mag = 1000000 := by
  rw [level, mag_between, Real.sqrt_eq_iff_mul_self_eq] <;> norm_num

lemma mag_rising : 1000000 ≤ rising.along.mag ∧ rising.along.mag ≤ 1000001 := by
  rw [rising, mag_between]
  constructor
  · exact Real.le_sqrt_of_sq_le (by norm_num)
  · exact Real.sqrt_le_iff.mpr (by norm_num)

/-- All of the level line lies in the shadow of the rising one. -/
lemma level_shares : level.Shares rising coincidentTol (.run ⟨0, 0, 0⟩ ⟨1000000, 0, 0⟩) := by
  have hstart : level.shadow rising.start = 0 := level.shadow_start
  have hstop : level.shadow rising.stop = 1 := by
    rw [shadow, mag_level]
    norm_num [level, rising, between, along, Point.dot, Point.sub]
  have hlow : level.low rising = 0 := by
    rw [low, hstart, hstop]
    norm_num
  have hhigh : level.high rising = 1 := by
    rw [high, hstart, hstop]
    norm_num
  have hrun : level.Shares rising coincidentTol
      (.run (level.point (level.low rising)) (level.point (level.high rising))) := by
    refine .run ?_ ?_
    · rw [offset, mag_level, coincidentTol_eq]
      norm_num [level, rising, between, along, Point.crossXY, Point.sub]
    · rw [overlap, hlow, hhigh, mag_level, coincidentTol_eq]
      norm_num
  rwa [hlow, hhigh, point_zero, point_one] at hrun

/-- **Lines that pass for parallel.**  Both ends of the level line are reported, and the rising line
ends too far above the second. -/
lemma refuse_rising : Segment.Refuse (.line level) (.line rising) := by
  have ha : Segment.Built (.line level) :=
    built_between (.inl (by rw [coincidentTol_eq]; norm_num [abs_of_nonneg]))
  have hb : Segment.Built (.line rising) :=
    built_between (.inl (by rw [coincidentTol_eq]; norm_num [abs_of_nonneg]))
  obtain ⟨hmag, hmag'⟩ := mag_rising
  have hparallel : level.PassesForParallel rising coincidentTol := by
    rw [PassesForParallel, mag_level, level, rising, skew_between, coincidentTol_eq, ← rising]
    norm_num [abs_of_nonneg]
    linarith
  obtain ⟨r, hr, hshares⟩ :=
    intersectParallel_shares (ha.line.mag_pos coincidentTol_pos.le).ne' rising coincidentTol
  rw [hshares.unique coincidentTol_pos.le level_shares] at hr
  refine Segment.refuse_of_not_near ha hb ((intersect_of_parallel hparallel).trans hr)
    (List.mem_cons_of_mem _ List.mem_cons_self) (.inr rfl) ?_
  rintro ⟨t, -, -, hnear⟩
  have hpos : 0 < rising.along.mag := by linarith
  have hshadow := (dist_point_shadow_le hpos t).trans hnear
  have hcross : |rising.along.crossXY ((⟨1000000, 0, 0⟩ : Point ℝ).sub rising.start)| = 5000 := by
    norm_num [rising, between, along, Point.crossXY, Point.sub]
  rw [dist_shadow hb.line coincidentTol_pos.le rfl, hcross, div_le_iff₀ hpos, radiusTol_eq] at hshadow
  linarith

end Line

/-- **Not everything reported can be split at**, be it of a circle and an arc or of two lines. -/
theorem Segment.refused_at_meeting :
    Refuse (curve (.circle (Line.aboutOrigin 5))) (curve (.arc (Circle.halfAround 5 0.0009))) ∧
      Refuse (line Line.level) (line Line.rising) :=
  ⟨Circle.refuse_halfAround, Line.refuse_rising⟩

end Contour
