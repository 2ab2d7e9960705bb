import Contour.Proofs.LineCurve
import Contour.Proofs.Partition

/-!
# Splitting a circle

Two points cut a circle into two arcs, unless the shorter one is too short to be a piece.  The
kernel measures only one of the two arcs, the one that does not cross angle zero.

* `Circle.CutOnce` — the law: the whole circle if the shorter arc is no longer than the tolerance,
  and otherwise two arcs that make up the circle.
* `Circle.shorterArc_eq` — the shorter arc, which is defined from the chord, is the shorter one of
  the arc that is measured and the rest of the circle.
* `Circle.cut_cases` — what a cut at two points gives: the circle, the circle twice, or two arcs.
* `Circle.split_once_iff` — which points obey the law, and `Circle.straddling_points_doubled`, two
  that do not.
-/

namespace Contour.Circle

open Real (pi)

open Line (aboutOrigin built_aboutOrigin)

variable {c : Circle ℝ} {p q : Point ℝ} {tol : ℝ}

/-- The length of the shorter arc between two points of a circle, from their chord. -/
noncomputable def shorterArc (c : Circle ℝ) (p q : Point ℝ) : ℝ :=
  2 * c.radius * Real.arcsin (p.dist q / (2 * c.radius))

/-- Two counter-clockwise arcs between two points of a circle that make up the circle. -/
structure Halves (c : Circle ℝ) (p q : Point ℝ) (a b : Arc ℝ) : Prop where
  center_eq : a.center = c.center ∧ b.center = c.center
  radius_eq : a.radius = c.radius ∧ b.radius = c.radius
  counterclockwise : a.clockwise = false ∧ b.clockwise = false
  cuts : [a.traceStart, a.traceStop].Perm [p, q]
  closed : b.traceStart = a.traceStop ∧ b.traceStop = a.traceStart
  length_add : (Segment.curve (.arc a)).length + (Segment.curve (.arc b)).length
    = (Segment.curve (.circle c)).length

/-- **The law of splitting a circle at two points.** -/
structure CutOnce (c : Circle ℝ) (p q : Point ℝ) (tol : ℝ) (pieces : List (Segment ℝ)) : Prop where
  whole : c.shorterArc p q ≤ tol → pieces = [.curve (.circle c)]
  halves : tol < c.shorterArc p q →
    ∃ a b, pieces = [.curve (.arc a), .curve (.arc b)] ∧ c.Halves p q a b
  once : (pieces.filter Segment.isCircle).length ≤ 1

/-! ## Bearings -/

/-- The angle of a point of a circle, from zero up to a turn. -/
noncomputable def bearing (c : Circle ℝ) (p : Point ℝ) : ℝ :=
  Angle.unwrapAfter (p.angleXY c.center) 0

/-- The length of the arc between two points of a circle that does not cross angle zero. -/
noncomputable def measured (c : Circle ℝ) (p q : Point ℝ) : ℝ :=
  c.radius * |c.bearing p - c.bearing q|

noncomputable def circumference (c : Circle ℝ) : ℝ := 2 * pi * c.radius

lemma measured_comm (c : Circle ℝ) (p q : Point ℝ) : c.measured p q = c.measured q p := by
  rw [measured, measured, abs_sub_comm]

lemma shorterArc_comm (c : Circle ℝ) (p q : Point ℝ) : c.shorterArc p q = c.shorterArc q p := by
  rw [shorterArc, shorterArc, Point.dist_comm]

lemma bearing_nonneg (c : Circle ℝ) (p : Point ℝ) : 0 ≤ c.bearing p := Angle.le_unwrapAfter _ _

lemma bearing_lt (c : Circle ℝ) (p : Point ℝ) : c.bearing p < 2 * pi := by
  have hangle : p.angleXY c.center ≤ pi := Complex.arg_le_pi _
  have hlt : p.angleXY c.center < 0 + 2 * pi := by linarith [Real.pi_pos]
  exact (Angle.unwrapAfter_lt hlt).trans_eq (zero_add _)

lemma abs_bearing_sub_le (c : Circle ℝ) (p q : Point ℝ) :
    |c.bearing p - c.bearing q| ≤ 2 * pi := by
  rw [abs_le]
  constructor <;> linarith [c.bearing_nonneg p, c.bearing_nonneg q, c.bearing_lt p, c.bearing_lt q]

lemma around_angleXY (hc : c.Proper) (hp : p ∈ c.outline) :
    c.center.around c.radius (p.angleXY c.center) = p := by
  have hpoint := Point.around_angleXY (hp.1.trans hc.planar.symm)
  rwa [hp.2] at hpoint

lemma around_bearing (hc : c.Proper) (hp : p ∈ c.outline) :
    c.center.around c.radius (c.bearing p) = p := by
  rw [bearing, Point.around_unwrapAfter, around_angleXY hc hp]

/-! ## The shorter arc -/

lemma dist_eq_sin (hc : c.Proper) (hp : p ∈ c.outline) (hq : q ∈ c.outline) :
    p.dist q = 2 * c.radius * Real.sin (|c.bearing p - c.bearing q| / 2) := by
  have hpos := hc.radius_pos
  have hsin : 0 ≤ Real.sin (|c.bearing p - c.bearing q| / 2) :=
    Real.sin_nonneg_of_nonneg_of_le_pi (by positivity) (by linarith [abs_bearing_sub_le c p q])
  have hcos : Real.cos |c.bearing p - c.bearing q|
      = 2 * Real.cos (|c.bearing p - c.bearing q| / 2) ^ 2 - 1 := by
    rw [← Real.cos_two_mul, mul_div_cancel₀ _ two_ne_zero]
  have hone := Real.sin_sq_add_cos_sq (|c.bearing p - c.bearing q| / 2)
  have hchord := Point.dist_around_sq c.center c.radius (c.bearing p) (c.bearing q)
  rw [around_bearing hc hp, around_bearing hc hq, ← Real.cos_abs] at hchord
  rw [← sq_eq_sq₀ (Point.dist_nonneg p q) (by positivity), hchord]
  linear_combination c.radius ^ 2 * (-2 * hcos - 4 * hone)

/-- **The shorter arc** is the arc that does not cross angle zero or the rest of the circle. -/
lemma shorterArc_eq (hc : c.Proper) (hp : p ∈ c.outline) (hq : q ∈ c.outline) :
    c.shorterArc p q = min (c.measured p q) (c.circumference - c.measured p q) := by
  have hpos := hc.radius_pos
  have hratio : p.dist q / (2 * c.radius) = Real.sin (|c.bearing p - c.bearing q| / 2) := by
    rw [dist_eq_sin hc hp hq, mul_div_cancel_left₀ _ (by positivity)]
  have hlow := abs_nonneg (c.bearing p - c.bearing q)
  have hhigh := abs_bearing_sub_le c p q
  rw [shorterArc, hratio, measured, circumference]
  rcases le_total |c.bearing p - c.bearing q| pi with hle | hle
  · have hfirst := mul_le_mul_of_nonneg_left hle hpos.le
    rw [Real.arcsin_sin (by linarith) (by linarith), min_eq_left (by linarith)]
    ring
  · -- beyond half a turn the sine is that of the rest
    have hrest := mul_le_mul_of_nonneg_left hle hpos.le
    rw [← Real.sin_pi_sub, Real.arcsin_sin (by linarith) (by linarith), min_eq_right (by linarith)]
    ring

/-- An arc of at most half a turn is no longer than its chord by more than a half of `π`. -/
lemma shorterArc_le (hc : c.Proper) (hp : p ∈ c.outline) (hq : q ∈ c.outline) :
    c.shorterArc p q ≤ pi / 2 * p.dist q := by
  have hpos := hc.radius_pos
  set ratio := p.dist q / (2 * c.radius) with hratio
  have hchord : p.dist q = 2 * c.radius * ratio := by
    rw [hratio]
    field_simp
  have hnonneg : 0 ≤ ratio := div_nonneg (Point.dist_nonneg p q) (by positivity)
  have hle : ratio ≤ 1 := by
    rw [hratio, dist_eq_sin hc hp hq, mul_div_cancel_left₀ _ (by positivity)]
    exact Real.sin_le_one _
  have hjordan := Real.mul_le_sin (Real.arcsin_nonneg.mpr hnonneg) (Real.arcsin_le_pi_div_two ratio)
  rw [Real.sin_arcsin (by linarith) hle, div_mul_eq_mul_div, div_le_iff₀ Real.pi_pos] at hjordan
  have hscaled := mul_le_mul_of_nonneg_left hjordan hpos.le
  rw [shorterArc, ← hratio, hchord]
  linarith

/-! ## The arcs between two points -/

/-- The arc of a circle from one of its points counter-clockwise to another. -/
noncomputable def arcBetween (c : Circle ℝ) (p q : Point ℝ) : Arc ℝ :=
  ⟨c.center, c.radius, p, q, p.angleXY c.center,
    Angle.unwrapAfter (q.angleXY c.center) (p.angleXY c.center), false⟩

section Ends

variable (hc : c.Proper) (hp : p ∈ c.outline) (hq : q ∈ c.outline)
  (hradius : 2 * coincidentTol < c.radius)

include hp hq hradius

lemma center_not_agrees :
    (c.center.agrees p coincidentTol || c.center.agrees q coincidentTol) = false := by
  rw [Point.agrees_eq_false, Point.agrees_eq_false, Bool.or_false]
  · rwa [Point.dist_comm, hq.2]
  · rwa [Point.dist_comm, hp.2]

include hc

/-- Points of a circle that coincide give the circle. -/
lemma ofEnds_of_agrees (hagrees : p.agrees q coincidentTol = true) :
    Curve.ofEnds c.center p q false coincidentTol radiusTol = .ok (.circle c) := by
  have hcenter := center_not_agrees hp hq hradius
  simp [Curve.ofEnds, Point.isPlanar, hc.planar, hp.1, hq.1, hcenter, hagrees, hp.2]

lemma ofEnds_of_not_agrees (hagrees : p.agrees q coincidentTol = false) :
    Curve.ofEnds c.center p q false coincidentTol radiusTol = .ok (.arc (c.arcBetween p q)) := by
  rw [Curve.ofEnds_of_apart radiusTol_pos.le ⟨hc.planar, hp.1, hq.1⟩
    (center_not_agrees hp hq hradius) hagrees (hq.2.trans hp.2.symm) false, hp.2]
  rfl

end Ends

/-- The two arcs between two points of a circle make up the circle. -/
lemma halves_arcBetween (hc : c.Proper) (hp : p ∈ c.outline) (hq : q ∈ c.outline) (hne : p ≠ q) :
    c.Halves p q (c.arcBetween p q) (c.arcBetween q p) := by
  have hangle : p.angleXY c.center ≠ q.angleXY c.center := by
    intro heq
    refine hne ?_
    rw [← around_angleXY hc hp, ← around_angleXY hc hq, heq]
  have hlow : -pi < p.angleXY c.center ∧ -pi < q.angleXY c.center :=
    ⟨Complex.neg_pi_lt_arg _, Complex.neg_pi_lt_arg _⟩
  have hhigh : p.angleXY c.center ≤ pi ∧ q.angleXY c.center ≤ pi :=
    ⟨Complex.arg_le_pi _, Complex.arg_le_pi _⟩
  refine ⟨⟨rfl, rfl⟩, ⟨rfl, rfl⟩, ⟨rfl, rfl⟩, List.Perm.refl _, ⟨rfl, rfl⟩, ?_⟩
  show c.radius * (Angle.unwrapAfter (q.angleXY c.center) (p.angleXY c.center) - p.angleXY c.center)
    + c.radius * (Angle.unwrapAfter (p.angleXY c.center) (q.angleXY c.center) - q.angleXY c.center)
      = c.radius * (2 * pi - 0)
  -- of the two angles one lies behind the other and is unwrapped by a turn
  rcases hangle.lt_or_gt with hlt | hlt
  · rw [Angle.unwrapAfter_of_le hlt.le, Angle.unwrapAfter_of_lt hlt (by linarith)]
    ring
  · rw [Angle.unwrapAfter_of_lt hlt (by linarith), Angle.unwrapAfter_of_le hlt.le]
    ring

/-! ## Cutting -/

/-- A cut at two points does not depend on their order. -/
lemma cut_swap (c : Circle ℝ) (p q : Point ℝ) (tol : ℝ) : c.cut [p, q] tol = c.cut [q, p] tol := by
  have hordered : Scalar.ordered id [c.bearing p, c.bearing q]
      = Scalar.ordered id [c.bearing q, c.bearing p] := by
    simp only [Scalar.ordered, id_eq]
    rcases lt_trichotomy (c.bearing p) (c.bearing q) with hlt | heq | hlt
    · rw [if_neg hlt.not_gt, if_pos hlt]
    · rw [heq]
    · rw [if_pos hlt, if_neg hlt.not_gt]
  simp only [cut, List.map_cons, List.map_nil]
  rw [← bearing, ← bearing, hordered]

/-- A cut at two points of a circle, in the order of their bearings. -/
lemma cut_eq_of_le (hc : c.Proper) (hp : p ∈ c.outline) (hq : q ∈ c.outline)
    (hle : c.bearing p ≤ c.bearing q) (tol : ℝ) :
    c.cut [p, q] tol = if c.measured p q ≤ tol then .ok [.circle c] else do
      let first ← Curve.ofEnds c.center p q false coincidentTol radiusTol
      let second ← Curve.ofEnds c.center q p false coincidentTol radiusTol
      return [first, second] := by
  have hordered : Scalar.ordered id [c.bearing p, c.bearing q] = [c.bearing p, c.bearing q] :=
    if_neg (not_lt.mpr hle)
  have hmeasured : c.radius * (c.bearing q - c.bearing p) = c.measured p q := by
    rw [measured, abs_sub_comm, abs_of_nonneg (sub_nonneg.mpr hle)]
  simp only [cut, List.map_cons, List.map_nil]
  rw [← bearing, ← bearing, hordered]
  simp only [Point.polar_eq, around_bearing hc hp, around_bearing hc hq, hmeasured]
  rfl

/-- A circle on which two points are further apart than the tolerance of radii is not tiny. -/
lemma lt_radius_of_lt_measured (h : radiusTol < c.measured p q) : 2 * coincidentTol < c.radius := by
  have hpi : pi < 4 := Real.pi_lt_four
  have hturn := abs_bearing_sub_le c p q
  have hpos : 0 < c.radius := by
    by_contra hneg
    have hle : c.measured p q ≤ 0 := mul_nonpos_of_nonpos_of_nonneg (not_lt.mp hneg) (abs_nonneg _)
    exact absurd (radiusTol_pos.trans h) (not_lt.mpr hle)
  have hle : c.measured p q ≤ c.radius * 8 :=
    mul_le_mul_of_nonneg_left (hturn.trans (by linarith)) hpos.le
  rw [radiusTol_eq] at h
  rw [coincidentTol_eq]
  linarith

/-- **What a cut at two points gives.**  Points that are in the order of their bearings are compared
along the arc that does not cross angle zero; if it is long enough, the two arcs are built from the
points, which may still coincide. -/
lemma cut_cases (hc : c.Proper) (hp : p ∈ c.outline) (hq : q ∈ c.outline)
    (hle : c.bearing p ≤ c.bearing q) :
    (c.measured p q ≤ radiusTol ∧ c.cut [p, q] radiusTol = .ok [.circle c]) ∨
    (radiusTol < c.measured p q ∧ p.agrees q coincidentTol = true ∧
      c.cut [p, q] radiusTol = .ok [.circle c, .circle c]) ∨
    (radiusTol < c.measured p q ∧ p.agrees q coincidentTol = false ∧
      c.cut [p, q] radiusTol = .ok [.arc (c.arcBetween p q), .arc (c.arcBetween q p)]) := by
  rw [cut_eq_of_le hc hp hq hle]
  rcases le_or_gt (c.measured p q) radiusTol with hshort | hlong
  · exact .inl ⟨hshort, if_pos hshort⟩
  · have hradius := lt_radius_of_lt_measured hlong
    rw [if_neg hlong.not_ge]
    cases hagrees : p.agrees q coincidentTol with
    | true =>
        refine .inr (.inl ⟨hlong, rfl, ?_⟩)
        rw [ofEnds_of_agrees hc hp hq hradius hagrees,
          ofEnds_of_agrees hc hq hp hradius ((Point.agrees_comm q p _).trans hagrees)]
        rfl
    | false =>
        refine .inr (.inr ⟨hlong, rfl, ?_⟩)
        rw [ofEnds_of_not_agrees hc hp hq hradius hagrees,
          ofEnds_of_not_agrees hc hq hp hradius ((Point.agrees_comm q p _).trans hagrees)]
        rfl

/-! ## The law -/

lemma Halves.symm {a b : Arc ℝ} (h : c.Halves p q a b) : c.Halves q p a b :=
  { h with cuts := h.cuts.trans (List.Perm.swap _ _ _) }

lemma CutOnce.symm {pieces : List (Segment ℝ)} (h : c.CutOnce p q tol pieces) :
    c.CutOnce q p tol pieces where
  whole hle := h.whole (by rwa [shorterArc_comm])
  halves hlt := by
    obtain ⟨a, b, hpieces, hhalves⟩ := h.halves (by rwa [shorterArc_comm])
    exact ⟨a, b, hpieces, hhalves.symm⟩
  once := h.once

/-- Points that coincide have a short arc between them. -/
lemma shorterArc_of_agrees (hc : c.Proper) (hp : p ∈ c.outline) (hq : q ∈ c.outline)
    (hagrees : p.agrees q coincidentTol = true) : c.shorterArc p q ≤ radiusTol := by
  have hle := shorterArc_le hc hp hq
  have hdist := Point.dist_le_of_agrees hagrees
  have hscaled : pi / 2 * p.dist q ≤ 2 * (2 * coincidentTol) :=
    mul_le_mul (by linarith [Real.pi_lt_four]) hdist (Point.dist_nonneg p q) zero_le_two
  rw [coincidentTol_eq] at hscaled
  rw [radiusTol_eq]
  linarith

/-- A cut at two points in the order of their bearings obeys the law iff the arc that is measured is
short, or the rest is long. -/
lemma cutOnce_iff_of_le (hc : c.Proper) (hp : p ∈ c.outline) (hq : q ∈ c.outline)
    (hle : c.bearing p ≤ c.bearing q) :
    ∃ pieces, c.cut [p, q] radiusTol = .ok pieces ∧
      (c.CutOnce p q radiusTol (pieces.map Segment.curve) ↔
        c.measured p q ≤ radiusTol ∨ radiusTol < c.circumference - c.measured p q) := by
  have hshorter := shorterArc_eq hc hp hq
  rcases cut_cases hc hp hq hle with
    ⟨hshort, hcut⟩ | ⟨hlong, hagrees, hcut⟩ | ⟨hlong, hagrees, hcut⟩
  · have hwhole : c.shorterArc p q ≤ radiusTol := hshorter.trans_le ((min_le_left _ _).trans hshort)
    have honce : c.CutOnce p q radiusTol [.curve (.circle c)] :=
      ⟨fun _ => rfl, fun h => absurd hwhole h.not_ge, le_rfl⟩
    exact ⟨_, hcut, iff_of_true honce (.inl hshort)⟩
  · -- the circle comes twice, although the rest is short
    have hwhole := shorterArc_of_agrees hc hp hq hagrees
    refine ⟨_, hcut, iff_of_false (fun h => absurd h.once (Nat.not_succ_le_self 1)) ?_⟩
    rintro (hshort | hrest)
    · exact hlong.not_ge hshort
    · rw [hshorter] at hwhole
      exact (lt_min hlong hrest).not_ge hwhole
  · refine ⟨_, hcut, ?_, ?_⟩
    · intro h
      by_contra hnone
      obtain ⟨-, hrest⟩ := not_or.mp hnone
      have hwhole : c.shorterArc p q ≤ radiusTol :=
        hshorter.trans_le ((min_le_right _ _).trans (not_lt.mp hrest))
      exact absurd (h.whole hwhole) (by simp)
    · rintro (hshort | hrest)
      · exact absurd hshort hlong.not_ge
      · have hfar : radiusTol < c.shorterArc p q := (lt_min hlong hrest).trans_eq hshorter.symm
        have hne : p ≠ q := by
          rintro rfl
          simp [Point.agrees, coincidentTol_pos.le] at hagrees
        exact ⟨fun h => absurd h hfar.not_ge, fun _ => ⟨_, _, rfl, halves_arcBetween hc hp hq hne⟩,
          Nat.zero_le 1⟩

lemma contains_of_mem_outline (hp : p ∈ c.outline) (htol : 0 ≤ tol) :
    (Segment.curve (.circle c)).contains p tol = .ok true := by
  have hdist : ¬ tol < |p.dist c.center - c.radius| := by
    rw [hp.2, sub_self, abs_zero]
    exact not_lt.mpr htol
  exact if_neg hdist

lemma split_pair (hp : p ∈ c.outline) (hq : q ∈ c.outline) (htol : 0 ≤ tol) :
    (Segment.curve (.circle c)).split [p, q] tol = (c.cut [p, q] tol).map (·.map Segment.curve) := by
  have hchecked : (Segment.curve (.circle c)).checkCuts [p, q] tol = .ok () := by
    refine Segment.checkCuts_ok (.inr rfl) fun m hm => ?_
    rcases List.mem_pair.mp hm with rfl | rfl
    · exact contains_of_mem_outline hp htol
    · exact contains_of_mem_outline hq htol
  rw [Segment.split, hchecked]
  show (c.cut [p, q] tol >>= fun pieces => pure (pieces.map Segment.curve)) = _
  cases c.cut [p, q] tol <;> rfl

/-- **Which points split a circle once.**  The law holds unless the points lie on either side of
angle zero, so close together that only the rest of the circle is longer than the tolerance. -/
theorem split_once_iff (hc : Segment.Built (.curve (.circle c))) (hp : p ∈ c.outline)
    (hq : q ∈ c.outline) :
    ∃ pieces, (Segment.curve (.circle c)).split [p, q] radiusTol = .ok pieces ∧
      (c.CutOnce p q radiusTol pieces ↔
        c.measured p q ≤ radiusTol ∨ radiusTol < c.circumference - c.measured p q) := by
  have hproper : c.Proper := hc.support
  rw [split_pair hp hq radiusTol_pos.le]
  rcases le_total (c.bearing p) (c.bearing q) with hle | hle
  · obtain ⟨pieces, hcut, hiff⟩ := cutOnce_iff_of_le hproper hp hq hle
    exact ⟨_, congrArg _ hcut, hiff⟩
  · obtain ⟨pieces, hcut, hiff⟩ := cutOnce_iff_of_le hproper hq hp hle
    rw [measured_comm] at hiff
    refine ⟨_, congrArg _ ((cut_swap c p q radiusTol).trans hcut), Iff.trans ?_ hiff⟩
    exact ⟨CutOnce.symm, CutOnce.symm⟩

/-! ### Instances -/

lemma bearing_of_nonneg (hy : c.center.y ≤ p.y) : c.bearing p = p.angleXY c.center :=
  Angle.unwrapAfter_of_le (Complex.arg_nonneg_iff.mpr (sub_nonneg.mpr hy))

lemma bearing_of_neg (hy : p.y < c.center.y) : c.bearing p = p.angleXY c.center + 2 * pi := by
  have hlow : -pi < p.angleXY c.center := Complex.neg_pi_lt_arg _
  exact Angle.unwrapAfter_of_lt (Complex.arg_neg_iff.mpr (sub_neg.mpr hy))
    (by linarith [Real.pi_pos])

lemma mem_outline_aboutOrigin {radius x y : ℝ} (hradius : 0 ≤ radius)
    (h : x ^ 2 + y ^ 2 = radius ^ 2) : ⟨x, y, 0⟩ ∈ (aboutOrigin radius).outline :=
  ⟨rfl, Point.dist_origin hradius h⟩

/-- Two points above the center split the circle of radius five into two arcs. -/
theorem split_once_upper :
    Segment.Built (.curve (.circle (aboutOrigin 5))) ∧ ⟨3, 4, 0⟩ ∈ (aboutOrigin 5).outline ∧
      ⟨-3, 4, 0⟩ ∈ (aboutOrigin 5).outline ∧
      ∃ pieces, (Segment.curve (.circle (aboutOrigin 5))).split [⟨3, 4, 0⟩, ⟨-3, 4, 0⟩] radiusTol
          = .ok pieces ∧ (aboutOrigin 5).CutOnce ⟨3, 4, 0⟩ ⟨-3, 4, 0⟩ radiusTol pieces := by
  have hc : Segment.Built (.curve (.circle (aboutOrigin 5))) :=
    built_aboutOrigin (by rw [coincidentTol_eq]; norm_num)
  have hp : (⟨3, 4, 0⟩ : Point ℝ) ∈ (aboutOrigin 5).outline :=
    mem_outline_aboutOrigin (by norm_num) (by norm_num)
  have hq : (⟨-3, 4, 0⟩ : Point ℝ) ∈ (aboutOrigin 5).outline :=
    mem_outline_aboutOrigin (by norm_num) (by norm_num)
  have hupper : ∀ x : ℝ,
      0 ≤ (aboutOrigin 5).bearing ⟨x, 4, 0⟩ ∧ (aboutOrigin 5).bearing ⟨x, 4, 0⟩ ≤ pi := by
    intro x
    refine ⟨bearing_nonneg _ _, ?_⟩
    rw [bearing_of_nonneg (by norm_num [aboutOrigin])]
    exact Complex.arg_le_pi _
  have hmeasured : (aboutOrigin 5).measured ⟨3, 4, 0⟩ ⟨-3, 4, 0⟩ ≤ 5 * pi := by
    refine mul_le_mul_of_nonneg_left (abs_le.mpr ⟨?_, ?_⟩) (by norm_num [aboutOrigin])
    · linarith [(hupper 3).1, (hupper (-3)).2]
    · linarith [(hupper 3).2, (hupper (-3)).1]
  obtain ⟨pieces, hsplit, hiff⟩ := split_once_iff hc hp hq
  refine ⟨hc, hp, hq, pieces, hsplit, hiff.mpr (.inr ?_)⟩
  rw [circumference, radiusTol_eq]
  show (1e-3 : ℝ) < 2 * pi * 5 - _
  linarith [Real.pi_gt_three]

/-- A circle whose radius is a little more than an eighth. -/
noncomputable def eighth : Circle ℝ := aboutOrigin (1 / 8 + 1 / 2 ^ 55)

/-- A point of the circle just above angle zero. -/
noncomputable def above : Point ℝ := ⟨1 / 8 - 1 / 2 ^ 55, 1 / 2 ^ 28, 0⟩

/-- A point of the circle just below angle zero. -/
noncomputable def below : Point ℝ := ⟨1 / 8 - 1 / 2 ^ 55, -1 / 2 ^ 28, 0⟩

/-- Seen from the center, the point above lies ahead and the point below nearly a turn behind it. -/
lemma bearing_above_below :
    eighth.bearing above ≤ pi / 2 ∧ 2 * pi - pi / 2 ≤ eighth.bearing below := by
  have hahead : ∀ y : ℝ,
      |(⟨1 / 8 - 1 / 2 ^ 55, y, 0⟩ : Point ℝ).angleXY eighth.center| ≤ pi / 2 := by
    intro y
    refine Complex.abs_arg_le_pi_div_two_iff.mpr ?_
    norm_num [eighth, aboutOrigin]
  constructor
  · rw [bearing_of_nonneg (by norm_num [eighth, aboutOrigin, above])]
    exact (abs_le.mp (hahead _)).2
  · rw [bearing_of_neg (by norm_num [eighth, aboutOrigin, below])]
    have hlow := (abs_le.mp (hahead (-1 / 2 ^ 28))).1
    show _ ≤ (⟨1 / 8 - 1 / 2 ^ 55, -1 / 2 ^ 28, 0⟩ : Point ℝ).angleXY eighth.center + 2 * pi
    linarith

/-- **A circle that is split into itself, twice.**  The two points lie on either side of angle zero
and are nearer to each other than the ends of an arc may be. -/
theorem straddling_points_doubled :
    Segment.Built (.curve (.circle eighth)) ∧ radiusTol < eighth.radius ∧
      above ∈ eighth.outline ∧ below ∈ eighth.outline ∧ eighth.shorterArc above below ≤ radiusTol ∧
      (Segment.curve (.circle eighth)).split [above, below] radiusTol
        = .ok [.curve (.circle eighth), .curve (.circle eighth)] ∧
      ¬ eighth.CutOnce above below radiusTol [.curve (.circle eighth), .curve (.circle eighth)] := by
  have hc : Segment.Built (.curve (.circle eighth)) :=
    built_aboutOrigin (by rw [coincidentTol_eq]; norm_num)
  have hproper : eighth.Proper := hc.support
  have hradius : radiusTol < eighth.radius := by
    rw [radiusTol_eq]
    norm_num [eighth, aboutOrigin]
  have habove : above ∈ eighth.outline := mem_outline_aboutOrigin (by norm_num) (by norm_num)
  have hbelow : below ∈ eighth.outline := mem_outline_aboutOrigin (by norm_num) (by norm_num)
  have hagrees : above.agrees below coincidentTol = true := by
    simp only [Point.agrees, above, below, elementary_abs, coincidentTol_eq]
    norm_num [abs_of_pos]
  obtain ⟨hfirst, hlast⟩ := bearing_above_below
  have hlong : radiusTol < eighth.measured above below := by
    have hgap : pi ≤ |eighth.bearing above - eighth.bearing below| := by
      rw [abs_sub_comm]
      exact (by linarith : pi ≤ _ - _).trans (le_abs_self _)
    calc (radiusTol : ℝ) < 1 / 8 * pi := by rw [radiusTol_eq]; linarith [Real.pi_gt_three]
      _ ≤ eighth.measured above below :=
        mul_le_mul (by norm_num [eighth, aboutOrigin]) hgap Real.pi_pos.le hproper.radius_pos.le
  have hcut : eighth.cut [above, below] radiusTol = .ok [.circle eighth, .circle eighth] := by
    rcases cut_cases hproper habove hbelow (by linarith [Real.pi_pos]) with
      ⟨hshort, -⟩ | ⟨-, -, hcut⟩ | ⟨-, hapart, -⟩
    · exact absurd hshort hlong.not_ge
    · exact hcut
    · rw [hagrees] at hapart
      cases hapart
  refine ⟨hc, hradius, habove, hbelow, shorterArc_of_agrees hproper habove hbelow hagrees, ?_, ?_⟩
  · rw [split_pair habove hbelow radiusTol_pos.le, hcut]
    rfl
  · exact fun h => absurd h.once (Nat.not_succ_le_self 1)

end Contour.Circle
