import Contour.Proofs.Construction

/-!
# Two circles, exactly

How `Circle.position` places two circles, and what `Circle.crossings` finds when they cross.

* `Circle.outline`, `Circle.disc` — a circle as a set of points of the plane, and what it encloses.
* `Circle.Placed` — what each position says about distance and radii; `Circle.placed` says that
  the computed position says it.
* `Circle.position_swap` — the position seen from the other circle.
* `Circle.crossings_spec` — crossing circles share exactly the two points that are reported.
* `Circle.intersect_classified` — the whole classification read as geometry.
-/

namespace Contour

namespace Circle

variable {a b : Circle ℝ} {tol : ℝ}

/-- The points of the plane that lie on a circle. -/
def outline (c : Circle ℝ) : Set (Point ℝ) := {p | p.z = 0 ∧ p.dist c.center = c.radius}

/-- The points of the plane that lie on a circle or inside it. -/
def disc (c : Circle ℝ) : Set (Point ℝ) := {p | p.z = 0 ∧ p.dist c.center ≤ c.radius}

/-! ## Positions -/

/-- What a position of two circles says about the distance of their centers and their radii. -/
inductive Placed (a b : Circle ℝ) (tol : ℝ) : Position → Prop
  | apart (h : a.radius + b.radius < a.center.dist b.center) : Placed a b tol .apart
  | identical (h : a.same b tol = true) : Placed a b tol (.related .identical)
  | tangent (h : |a.center.dist b.center - a.radius - b.radius| < tol) :
      Placed a b tol (.related .tangent)
  | encircles (h : a.center.dist b.center ≤ a.radius - b.radius) :
      Placed a b tol (.related .encircles)
  | inside (h : a.center.dist b.center ≤ b.radius - a.radius) : Placed a b tol (.related .inside)
  | crossing (hlow : |a.radius - b.radius| < a.center.dist b.center)
      (hhigh : a.center.dist b.center < a.radius + b.radius) : Placed a b tol .crossing

lemma placed (a b : Circle ℝ) (htol : 0 < tol) : Placed a b tol (a.position b tol) := by
  unfold position
  simp only [elementary_abs]
  split_ifs with hapart hsame htangent hnested hless
  · exact .apart hapart
  · exact .identical hsame
  · exact .tangent htangent
  · rw [abs_of_pos (sub_pos.mpr hless)] at hnested
    exact .encircles hnested
  · rw [abs_of_nonpos (sub_nonpos.mpr (not_lt.mp hless)), neg_sub] at hnested
    exact .inside hnested
  · refine .crossing (not_le.mp hnested) (lt_of_le_of_ne (not_lt.mp hapart) ?_)
    -- circles that touch exactly are within the tolerance of touching
    intro htouch
    rw [htouch] at htangent
    exact htangent (by simpa using htol)

lemma same_comm (a b : Circle ℝ) (tol : ℝ) : b.same a tol = a.same b tol := by
  unfold same Point.agrees
  simp only [elementary_abs, abs_sub_comm a.center.x, abs_sub_comm a.center.y,
    abs_sub_comm a.center.z, abs_sub_comm a.radius]

def Position.swap : Position → Position
  | .apart => .apart
  | .related flag => .related flag.swap
  | .crossing => .crossing

/-- Circles of one radius whose centers are one point are the same. -/
lemma same_of_nested (htol : 0 < tol) (hradius : a.radius = b.radius)
    (hcenter : a.center.dist b.center ≤ 0) : a.same b tol = true := by
  have hagree := Point.agrees_of_dist_le (hcenter.trans htol.le)
  simp [same, hagree, hradius, htol]

lemma position_swap (a b : Circle ℝ) (htol : 0 < tol) :
    b.position a tol = (a.position b tol).swap := by
  unfold position
  simp only [elementary_abs, Point.dist_comm b.center, same_comm a b, add_comm b.radius,
    abs_sub_comm b.radius, sub_right_comm _ b.radius]
  split_ifs with hapart hsame htangent hnested hless hmore
  · rfl
  · rfl
  · rfl
  · exact absurd hless (not_lt.mpr (le_of_lt ‹_›))
  · rfl
  · rfl
  · -- equal radii and nested: then the circles are the same
    have hradius : a.radius = b.radius := le_antisymm (not_lt.mp ‹_›) (not_lt.mp ‹_›)
    rw [hradius, sub_self, abs_zero] at hnested
    exact absurd (same_of_nested htol hradius hnested) hsame
  · rfl

/-! ## Crossing points

The line through the crossing points meets the line of the centers at a right angle.  Seen from the
first center, `foot` is the signed distance of that meeting point and `reach` the distance of the
crossing points from it.
-/

/-- The signed distance from the first center to the line through the crossing points. -/
noncomputable def foot (a b : Circle ℝ) : ℝ :=
  (a.center.dist b.center * a.center.dist b.center - b.radius * b.radius + a.radius * a.radius)
    / (2 * a.center.dist b.center)

/-- The distance of the crossing points from the line of the centers. -/
noncomputable def reach (a b : Circle ℝ) : ℝ := √(a.radius * a.radius - a.foot b * a.foot b)

/-- The point at a signed distance from the line of the centers, on the line through the crossing
points. -/
noncomputable def beside (a b : Circle ℝ) (t : ℝ) : Point ℝ :=
  .planar
    (a.center.x + a.foot b * ((b.center.x - a.center.x) / a.center.dist b.center)
      - t * ((b.center.y - a.center.y) / a.center.dist b.center))
    (a.center.y + a.foot b * ((b.center.y - a.center.y) / a.center.dist b.center)
      + t * ((b.center.x - a.center.x) / a.center.dist b.center))

/-- Circles that cross do so away from the line of their centers: the number under the root is
positive. -/
lemma reach_sq_pos (hlow : |a.radius - b.radius| < a.center.dist b.center)
    (hhigh : a.center.dist b.center < a.radius + b.radius) :
    0 < a.radius * a.radius - a.foot b * a.foot b := by
  obtain ⟨hl, hr⟩ := abs_lt.mp hlow
  have hd : 0 < a.center.dist b.center := (abs_nonneg _).trans_lt hlow
  rw [foot]
  set d := a.center.dist b.center
  have hfactor : a.radius * a.radius - (d * d - b.radius * b.radius + a.radius * a.radius) / (2 * d)
        * ((d * d - b.radius * b.radius + a.radius * a.radius) / (2 * d))
      = ((a.radius + b.radius - d) * (a.radius + b.radius + d)
          * ((d - (a.radius - b.radius)) * (d + (a.radius - b.radius)))) / (4 * d ^ 2) := by
    field_simp
    ring
  rw [hfactor]
  have h1 : 0 < a.radius + b.radius - d := by linarith
  have h2 : 0 < a.radius + b.radius + d := by linarith
  have h3 : 0 < d - (a.radius - b.radius) := by linarith
  have h4 : 0 < d + (a.radius - b.radius) := by linarith
  positivity

lemma direction_sq (ha : a.Proper) (hb : b.Proper) (hd : 0 < a.center.dist b.center) :
    ((b.center.x - a.center.x) / a.center.dist b.center) ^ 2
      + ((b.center.y - a.center.y) / a.center.dist b.center) ^ 2 = 1 := by
  have hsq := Point.dist_sq a.center b.center
  rw [ha.planar, hb.planar] at hsq
  field_simp
  linarith

lemma mem_outline_iff {c : Circle ℝ} (hc : c.Proper) (p : Point ℝ) :
    p ∈ c.outline ↔ p.z = 0 ∧ (p.x - c.center.x) ^ 2 + (p.y - c.center.y) ^ 2 = c.radius ^ 2 := by
  refine and_congr_right fun hz => ?_
  rw [Point.dist_eq_iff hc.radius_pos.le, hz, hc.planar]
  simp

/-- The second center lies at its distance in its direction from the first. -/
lemma center_eq (hd : 0 < a.center.dist b.center) :
    b.center.x = a.center.x
        + a.center.dist b.center * ((b.center.x - a.center.x) / a.center.dist b.center) ∧
      b.center.y = a.center.y
        + a.center.dist b.center * ((b.center.y - a.center.y) / a.center.dist b.center) := by
  constructor
  · field_simp; ring
  · field_simp; ring

lemma foot_eq (hd : 0 < a.center.dist b.center) :
    2 * a.center.dist b.center * a.foot b
      = a.center.dist b.center ^ 2 - b.radius ^ 2 + a.radius ^ 2 := by
  rw [foot]
  field_simp

/-- The signed distance of a point from the line of the centers. -/
noncomputable def side (a b : Circle ℝ) (p : Point ℝ) : ℝ :=
  (p.y - a.center.y) * ((b.center.x - a.center.x) / a.center.dist b.center)
    - (p.x - a.center.x) * ((b.center.y - a.center.y) / a.center.dist b.center)

lemma side_beside (ha : a.Proper) (hb : b.Proper) (hd : 0 < a.center.dist b.center) (t : ℝ) :
    a.side b (a.beside b t) = t := by
  have hunit := direction_sq ha hb hd
  rw [side, beside]
  simp only [Point.planar]
  linear_combination t * hunit

/-- A common point lies beside the foot, as far off as the radius asks for. -/
lemma eq_beside_side (ha : a.Proper) (hb : b.Proper) (hd : 0 < a.center.dist b.center)
    {p : Point ℝ} (hp : p ∈ a.outline ∩ b.outline) :
    p = a.beside b (a.side b p) ∧
      a.side b p ^ 2 = a.radius * a.radius - a.foot b * a.foot b := by
  have hunit := direction_sq ha hb hd
  have hfoot := foot_eq hd
  obtain ⟨hx, hy⟩ := center_eq hd
  rw [Set.mem_inter_iff, mem_outline_iff ha, mem_outline_iff hb] at hp
  obtain ⟨⟨hz, hpa⟩, -, hpb⟩ := hp
  rw [hx, hy] at hpb
  rw [beside, side]
  set d := a.center.dist b.center
  set ux := (b.center.x - a.center.x) / d
  set uy := (b.center.y - a.center.y) / d
  set f := a.foot b
  have halong : (p.x - a.center.x) * ux + (p.y - a.center.y) * uy = f := by
    have hdouble : 2 * d * ((p.x - a.center.x) * ux + (p.y - a.center.y) * uy) = 2 * d * f := by
      rw [hfoot]
      linear_combination hpa - hpb + d ^ 2 * hunit
    exact mul_left_cancel₀ (by positivity) hdouble
  constructor
  · obtain ⟨px, py, pz⟩ := p
    simp only [Point.planar, Point.mk.injEq]
    refine ⟨?_, ?_, hz⟩
    · rw [← halong]; linear_combination (a.center.x - px) * hunit
    · rw [← halong]; linear_combination (a.center.y - py) * hunit
  · rw [← halong]
    linear_combination (a.radius ^ 2) * hunit + (ux ^ 2 + uy ^ 2) * hpa

/-- The points beside the foot, as far off as the radius asks for, are common points. -/
lemma beside_mem (ha : a.Proper) (hb : b.Proper) (hd : 0 < a.center.dist b.center) {t : ℝ}
    (ht : t ^ 2 = a.radius * a.radius - a.foot b * a.foot b) :
    a.beside b t ∈ a.outline ∩ b.outline := by
  have hunit := direction_sq ha hb hd
  have hfoot := foot_eq hd
  obtain ⟨hx, hy⟩ := center_eq hd
  rw [Set.mem_inter_iff, mem_outline_iff ha, mem_outline_iff hb, hx, hy, beside]
  set d := a.center.dist b.center
  set ux := (b.center.x - a.center.x) / d
  set uy := (b.center.y - a.center.y) / d
  set f := a.foot b
  refine ⟨⟨rfl, ?_⟩, rfl, ?_⟩
  · simp only [Point.planar]
    linear_combination (f ^ 2 + t ^ 2) * hunit + ht
  · simp only [Point.planar]
    linear_combination ((f - d) ^ 2 + t ^ 2) * hunit + ht - hfoot

/-- **The common points of two circles.**  A point lies on both circles iff it is one of the two
points at the distance `reach` from the line of the centers. -/
lemma mem_outlines_iff (ha : a.Proper) (hb : b.Proper)
    (hlow : |a.radius - b.radius| < a.center.dist b.center)
    (hhigh : a.center.dist b.center < a.radius + b.radius) (p : Point ℝ) :
    p ∈ a.outline ∩ b.outline ↔ p = a.beside b (a.reach b) ∨ p = a.beside b (-a.reach b) := by
  have hd : 0 < a.center.dist b.center := (abs_nonneg _).trans_lt hlow
  have hreach : a.reach b ^ 2 = a.radius * a.radius - a.foot b * a.foot b :=
    Real.sq_sqrt (reach_sq_pos hlow hhigh).le
  constructor
  · intro hp
    obtain ⟨heq, hside⟩ := eq_beside_side ha hb hd hp
    rcases sq_eq_sq_iff_eq_or_eq_neg.mp (hside.trans hreach.symm) with h | h
    · exact .inl (heq.trans (congrArg _ h))
    · exact .inr (heq.trans (congrArg _ h))
  · rintro (rfl | rfl)
    · exact beside_mem ha hb hd hreach
    · exact beside_mem ha hb hd ((neg_sq _).trans hreach)

lemma beside_ne_beside_neg (ha : a.Proper) (hb : b.Proper)
    (hlow : |a.radius - b.radius| < a.center.dist b.center)
    (hhigh : a.center.dist b.center < a.radius + b.radius) :
    a.beside b (a.reach b) ≠ a.beside b (-a.reach b) := by
  intro heq
  have hd : 0 < a.center.dist b.center := (abs_nonneg _).trans_lt hlow
  have hreach : 0 < a.reach b := Real.sqrt_pos.mpr (reach_sq_pos hlow hhigh)
  have hsides := congrArg (a.side b) heq
  rw [side_beside ha hb hd, side_beside ha hb hd] at hsides
  linarith

/-- The computed points are those beside the line of the centers, in some order. -/
lemma crossings_eq (hlow : |a.radius - b.radius| < a.center.dist b.center)
    (hhigh : a.center.dist b.center < a.radius + b.radius) :
    a.crossings b
      = .ok (a.center.orderAbout [a.beside b (a.reach b), a.beside b (-a.reach b)]) := by
  have hd : a.center.dist b.center ≠ 0 := ((abs_nonneg _).trans_lt hlow).ne'
  have hmax : max (a.radius * a.radius - a.foot b * a.foot b) 0
      = a.radius * a.radius - a.foot b * a.foot b := max_eq_left (reach_sq_pos hlow hhigh).le
  unfold crossings
  simp only [quotient_of_ne _ hd, quotient_of_ne _ (mul_ne_zero two_ne_zero hd), larger_eq_max,
    elementary_sqrt]
  show Except.ok _ = _
  rw [← foot, hmax, ← reach]
  simp [beside, sub_eq_add_neg]

/-- **Crossing circles share exactly the two points that are reported.** -/
theorem crossings_spec (ha : a.Proper) (hb : b.Proper)
    (hlow : |a.radius - b.radius| < a.center.dist b.center)
    (hhigh : a.center.dist b.center < a.radius + b.radius) :
    ∃ p q, a.crossings b = .ok [p, q] ∧ p ≠ q ∧ a.outline ∩ b.outline = {p, q} := by
  have hmem := mem_outlines_iff ha hb hlow hhigh
  have hne := beside_ne_beside_neg ha hb hlow hhigh
  rw [crossings_eq hlow hhigh]
  unfold Point.orderAbout Scalar.ordered
  dsimp only
  split_ifs
  · refine ⟨_, _, rfl, hne.symm, ?_⟩
    ext p
    rw [hmem p, Set.mem_insert_iff, Set.mem_singleton_iff, or_comm]
  · refine ⟨_, _, rfl, hne, ?_⟩
    ext p
    rw [hmem p, Set.mem_insert_iff, Set.mem_singleton_iff]

/-! ## The classification -/

lemma disjoint_disc (h : a.radius + b.radius < a.center.dist b.center) :
    Disjoint a.disc b.disc := by
  rw [Set.disjoint_left]
  rintro p ⟨-, hpa⟩ ⟨-, hpb⟩
  have htriangle := Point.dist_triangle a.center p b.center
  rw [Point.dist_comm a.center p] at htriangle
  linarith

lemma disc_subset_disc (h : a.center.dist b.center ≤ a.radius - b.radius) : b.disc ⊆ a.disc := by
  rintro p ⟨hz, hpb⟩
  have htriangle := Point.dist_triangle p b.center a.center
  rw [Point.dist_comm b.center a.center] at htriangle
  exact ⟨hz, by linarith⟩

/-- What a result about two circles says of them as figures of the plane.  Circles without a flag
either enclose disjoint discs, or share exactly the two reported points; the construction of these
divides by a distance that is not zero and takes the root of a positive number. -/
def Classified (a b : Circle ℝ) (radiusTol : ℝ) (r : Intersection ℝ) : Prop :=
  match r.flag with
  | .plain =>
      (r.points = [] ∧ Disjoint a.disc b.disc) ∨
      ((∃ p q, r.points = [p, q] ∧ p ≠ q ∧ a.outline ∩ b.outline = {p, q}) ∧
        a.center.dist b.center ≠ 0 ∧ 0 < a.radius * a.radius - a.foot b * a.foot b)
  | .identical =>
      r.points = [] ∧ |a.center.x - b.center.x| ≤ radiusTol ∧
        |a.center.y - b.center.y| ≤ radiusTol ∧ |a.radius - b.radius| < radiusTol
  | .tangent => r.points = [] ∧ |a.center.dist b.center - a.radius - b.radius| < radiusTol
  | .encircles => r.points = [] ∧ b.disc ⊆ a.disc
  | .inside => r.points = [] ∧ a.disc ⊆ b.disc
  | .edge => False

/-- **Two circles are classified rightly and completely.**  Whatever the tolerances, the result
exists and says the truth about the two circles. -/
theorem intersect_classified {a b : Circle ℝ} (ha : a.Proper) (hb : b.Proper) (tol : ℝ)
    {radiusTol : ℝ} (htol : 0 < radiusTol) :
    ∃ r, (Segment.curve (.circle a)).intersect (.curve (.circle b)) tol radiusTol = .ok r ∧
      Classified a b radiusTol r := by
  show ∃ r, a.intersect b radiusTol = .ok r ∧ Classified a b radiusTol r
  unfold intersect
  have hplaced := placed a b htol
  revert hplaced
  generalize a.position b radiusTol = position
  intro hplaced
  cases hplaced with
  | apart h => exact ⟨_, rfl, .inl ⟨rfl, disjoint_disc h⟩⟩
  | identical h =>
      simp only [same, Point.agrees, elementary_abs, Bool.and_eq_true, decide_eq_true_eq] at h
      obtain ⟨⟨⟨hx, hy⟩, -⟩, hradius⟩ := h
      exact ⟨_, rfl, rfl, hx, hy, hradius⟩
  | tangent h => exact ⟨_, rfl, rfl, h⟩
  | encircles h => exact ⟨_, rfl, rfl, disc_subset_disc h⟩
  | inside h =>
      rw [Point.dist_comm] at h
      exact ⟨_, rfl, rfl, disc_subset_disc h⟩
  | crossing hlow hhigh =>
      obtain ⟨p, q, hcross, hne, hmem⟩ := crossings_spec ha hb hlow hhigh
      refine ⟨.crossing [p, q], by rw [hcross]; rfl, .inr ⟨⟨p, q, rfl, hne, hmem⟩, ?_, ?_⟩⟩
      · exact ((abs_nonneg _).trans_lt hlow).ne'
      · exact reach_sq_pos hlow hhigh

/-- Two circles of radius five whose centers are eight apart. -/
theorem intersect_classified_five_five :
    Circle.Proper ⟨⟨0, 0, 0⟩, 5⟩ ∧ Circle.Proper ⟨⟨8, 0, 0⟩, 5⟩ ∧ 0 < (1e-3 : ℝ) ∧
      ∃ r, (Segment.curve (.circle ⟨⟨0, 0, 0⟩, 5⟩)).intersect (.curve (.circle ⟨⟨8, 0, 0⟩, 5⟩))
          1e-8 1e-3 = .ok r ∧ Classified ⟨⟨0, 0, 0⟩, 5⟩ ⟨⟨8, 0, 0⟩, 5⟩ 1e-3 r := by
  have ha : Circle.Proper ⟨⟨0, 0, 0⟩, 5⟩ := ⟨rfl, by norm_num⟩
  have hb : Circle.Proper ⟨⟨8, 0, 0⟩, 5⟩ := ⟨rfl, by norm_num⟩
  have htol : 0 < (1e-3 : ℝ) := by norm_num
  exact ⟨ha, hb, htol, intersect_classified ha hb 1e-8 htol⟩

end Circle

end Contour
