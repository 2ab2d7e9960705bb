import Contour.Proofs.Folds

/-!
# Which corners are flat

A flat patch is checked corner by corner against a normal that is summed up edge by edge.  Over the
real numbers both collapse: the sum is the vector product of the two diagonals, and of the three
heights over the plane through the first corner one is zero and the other two are the same.  So one
comparison decides whether four corners are flat, and what it leaves at the corners holds in between.

* `abs_cornerMean_le` — means are bounded by what bounds the numbers.
* `Quad.normalSum_eq_cross` — the normal as the product of the diagonals; `normalSum_moved`,
  `normalSum_iterate_turned`, `normalSum_reversed` say what moving and renumbering the corners do to it.
* `Quad.dot_normalSum_third`, `Quad.dot_normalSum_fourth` — the heights of the corners.
* `Quad.Flat`, `Plane.exists_ofCorners_iff` — the condition, and that it is the right one.
* `Plane.height`, `Plane.height_evaluate` — how far the points of a patch are from its plane.
* `Plane.Through` — what a patch through four corners is; `Plane.ofCorners_flat` puts all together.
* `Plane.opposite_of_reversed` — the patch with the same boundary, seen from the other side.
-/

namespace Contour

/-! ## Means that are bounded -/

section CornerMean

variable {a b c d u v bound : ℝ}

/-- A mean of four numbers is a mean of two means, along opposite sides of the square. -/
lemma cornerMean_eq_sides (a b c d u v : ℝ) :
    cornerMean a b c d u v = (1 - v) * ((1 - u) * a + u * b) + v * ((1 - u) * d + u * c) := by
  simp only [cornerMean]
  ring

lemma abs_mean_le (ha : |a| ≤ bound) (hb : |b| ≤ bound) (hu : u ∈ Set.Icc 0 1) :
    |(1 - u) * a + u * b| ≤ bound := by
  rw [abs_le] at ha hb ⊢
  exact convex_Icc (-bound) bound ha hb (sub_nonneg.mpr hu.2) hu.1 (sub_add_cancel 1 u)

lemma abs_cornerMean_le (ha : |a| ≤ bound) (hb : |b| ≤ bound) (hc : |c| ≤ bound) (hd : |d| ≤ bound)
    (hu : u ∈ Set.Icc 0 1) (hv : v ∈ Set.Icc 0 1) : |cornerMean a b c d u v| ≤ bound := by
  rw [cornerMean_eq_sides]
  exact abs_mean_le (abs_mean_le ha hb hu) (abs_mean_le hd hc hu) hv

end CornerMean

lemma Point.dot_scale (p q : Point ℝ) (c : ℝ) : p.dot (q.scale c) = p.dot q * c := by
  simp only [dot, scale]
  ring

namespace Quad

/-! ## The normal of four corners -/

/-- The quadrilateral with every corner moved by the same displacement. -/
def moved (q : Quad ℝ) (d : Point ℝ) : Quad ℝ :=
  ⟨q.first.add d, q.second.add d, q.third.add d, q.fourth.add d⟩

/-- The same boundary, from its second corner on. -/
def turned (q : Quad ℝ) : Quad ℝ := ⟨q.second, q.third, q.fourth, q.first⟩

/-- The same boundary, run through backwards. -/
def reversed (q : Quad ℝ) : Quad ℝ := ⟨q.fourth, q.third, q.second, q.first⟩

variable (q : Quad ℝ)

lemma normalSum_eq_cross :
    q.normalSum = (q.third.sub q.first).cross (q.fourth.sub q.second) := by
  simp only [normalSum, List.foldl_cons, List.foldl_nil, Point.add, Point.sub, Point.cross,
    Point.mk.injEq]
  refine ⟨?_, ?_, ?_⟩ <;> ring

/-- The diagonals do not notice where the corners are. -/
lemma normalSum_moved (d : Point ℝ) : (q.moved d).normalSum = q.normalSum := by
  rw [normalSum_eq_cross, normalSum_eq_cross]
  simp only [moved, Point.add, Point.sub, add_sub_add_right_eq_sub]

lemma normalSum_turned : q.turned.normalSum = q.normalSum := by
  rw [normalSum_eq_cross, normalSum_eq_cross]
  simp only [turned, Point.sub, Point.cross, Point.mk.injEq]
  refine ⟨?_, ?_, ?_⟩ <;> ring

lemma normalSum_iterate_turned (k : ℕ) : (turned^[k] q).normalSum = q.normalSum := by
  induction k generalizing q with
  | zero => rfl
  | succ k ih => rw [Function.iterate_succ_apply, ih, normalSum_turned]

lemma normalSum_reversed : q.reversed.normalSum = q.normalSum.scale (-1) := by
  rw [normalSum_eq_cross, normalSum_eq_cross]
  simp only [reversed, Point.sub, Point.cross, Point.scale, Point.mk.injEq]
  refine ⟨?_, ?_, ?_⟩ <;> ring

/-- The third corner is at the other end of a diagonal. -/
lemma dot_normalSum_third : (q.third.sub q.first).dot q.normalSum = 0 := by
  rw [normalSum_eq_cross]
  simp only [Point.sub, Point.cross, Point.dot]
  ring

/-- The second and the fourth corner are the ends of the other diagonal. -/
lemma dot_normalSum_fourth :
    (q.fourth.sub q.first).dot q.normalSum = (q.second.sub q.first).dot q.normalSum := by
  rw [normalSum_eq_cross]
  simp only [Point.sub, Point.cross, Point.dot]
  ring

/-- Four corners that span an area, and whose diagonals pass each other within `tol`. -/
structure Flat (tol : ℝ) : Prop where
  spans : tol ≤ q.normalSum.mag
  level : |(q.second.sub q.first).dot q.normalSum| ≤ tol * q.normalSum.mag

end Quad

namespace Plane

variable {q : Quad ℝ} {p : Plane ℝ} {tol : ℝ}

/-! ## Flat corners -/

/-- A height is compared with the unit normal as it is with the normal that was summed up. -/
lemma abs_dot_unit_le_iff {n : Point ℝ} (hn : 0 < n.mag) (d : Point ℝ) :
    |d.dot (n.scale (1 / n.mag))| ≤ tol ↔ |d.dot n| ≤ tol * n.mag := by
  rw [Point.dot_scale, mul_one_div, abs_div, abs_of_pos hn, div_le_iff₀ hn]

/-- **Which corners are accepted as flat.**  Of the three that are compared with the first, the third
has no height at all, and the other two have the same. -/
lemma exists_ofCorners_iff (htol : 0 < tol) : (∃ p, ofCorners q tol = .ok p) ↔ q.Flat tol := by
  constructor
  · rintro ⟨p, hp⟩
    obtain ⟨hpos, -, hnormal⟩ := ofCorners_eq_ok hp
    have hchecked := ofCorners_eq_ok_iff.mp hp
    have hsecond := not_lt.mp (hchecked.flat q.second List.mem_cons_self)
    rw [hnormal, elementary_abs, abs_dot_unit_le_iff hpos] at hsecond
    exact ⟨not_lt.mp hchecked.spans, hsecond⟩
  · intro hflat
    have hpos : 0 < q.normalSum.mag := htol.trans_le hflat.spans
    refine ⟨⟨q, q.normalSum.scale (1 / q.normalSum.mag), 0.5 * q.normalSum.mag⟩,
      ofCorners_eq_ok_iff.mpr ⟨rfl, not_lt.mpr hflat.spans, ⟨_, quotient_of_ne _ hpos.ne', rfl⟩,
        fun corner hcorner => ?_, rfl⟩⟩
    rw [not_lt, elementary_abs, abs_dot_unit_le_iff hpos]
    simp only [List.mem_cons, List.not_mem_nil, or_false] at hcorner
    rcases hcorner with rfl | rfl | rfl
    · exact hflat.level
    · rw [q.dot_normalSum_third, abs_zero]
      positivity
    · rw [q.dot_normalSum_fourth]
      exact hflat.level

/-- Corners that are points already are taken as they are. -/
lemma read_points [Textual ℝ] (q : Quad ℝ) (tol : ℝ) :
    Plane.read (.list (q.toList.map .point)) tol = ofCorners q tol := rfl

/-! ## Between the corners -/

/-- The height of a point over the plane through the first corner, along the normal. -/
def height (p : Plane ℝ) (r : Point ℝ) : ℝ := (r.sub p.corners.first).dot p.normal

/-- A patch is the bilinear image of a square, so that heights are means of those of the corners. -/
lemma height_evaluate (p : Plane ℝ) (u v : ℝ) : p.height (p.evaluate u v)
    = cornerMean (p.height p.corners.first) (p.height p.corners.second) (p.height p.corners.third)
        (p.height p.corners.fourth) u v := by
  simp only [height, evaluate, cornerMean, Point.lerp, Point.sub, Point.dot]
  ring

lemma height_first (p : Plane ℝ) : p.height p.corners.first = 0 := by
  simp [height, Point.sub, Point.dot]

/-- A flat patch through four corners, up to a tolerance. -/
structure Through (p : Plane ℝ) (q : Quad ℝ) (tol : ℝ) : Prop where
  unit : p.normal.mag = 1
  normal_eq : p.normal = q.normalSum.scale (1 / q.normalSum.mag)
  area_eq : p.area = q.normalSum.mag / 2
  /-- Every point of the patch is near the plane through the first corner. -/
  near : ∀ u ∈ Set.Icc (0 : ℝ) 1, ∀ v ∈ Set.Icc (0 : ℝ) 1,
    |((p.evaluate u v).sub q.first).dot p.normal| ≤ tol
  first : p.evaluate 0 0 = q.first
  second : p.evaluate 1 0 = q.second
  third : p.evaluate 1 1 = q.third
  fourth : p.evaluate 0 1 = q.fourth

lemma through_of_ofCorners (htol : 0 < tol) (h : ofCorners q tol = .ok p) : p.Through q tol := by
  obtain ⟨hpos, rfl, hnormal⟩ := ofCorners_eq_ok h
  have hchecked := ofCorners_eq_ok_iff.mp h
  have hcorner : ∀ corner ∈ [p.corners.second, p.corners.third, p.corners.fourth],
      |p.height corner| ≤ tol := fun corner hcorner => not_lt.mp (hchecked.flat corner hcorner)
  simp only [List.forall_mem_cons, List.not_mem_nil, false_imp_iff, implies_true, and_true] at hcorner
  obtain ⟨hsecond, hthird, hfourth⟩ := hcorner
  have hfirst : |p.height p.corners.first| ≤ tol := by
    rw [height_first, abs_zero]
    exact htol.le
  refine ⟨?_, hnormal, ?_, fun u hu v hv => ?_, ?_, ?_, ?_, ?_⟩
  · rw [hnormal, Point.mag_scale, abs_of_pos (one_div_pos.mpr hpos), mul_one_div_cancel hpos.ne']
  · rw [hchecked.area_eq]
    ring
  · show |p.height (p.evaluate u v)| ≤ tol
    rw [height_evaluate]
    exact abs_cornerMean_le hfirst hsecond hthird hfourth hu hv
  all_goals simp [evaluate, Point.lerp]

/-- The other side of a patch: its boundary is run through backwards. -/
lemma opposite_of_reversed {p' : Plane ℝ} (h : ofCorners q tol = .ok p)
    (h' : ofCorners q.reversed tol = .ok p') :
    p'.area = p.area ∧ p'.normal = p.normal.scale (-1) := by
  obtain ⟨-, -, hnormal⟩ := ofCorners_eq_ok h
  obtain ⟨-, -, hnormal'⟩ := ofCorners_eq_ok h'
  have harea := (ofCorners_eq_ok_iff.mp h).area_eq
  have harea' := (ofCorners_eq_ok_iff.mp h').area_eq
  have hmag : q.reversed.normalSum.mag = q.normalSum.mag := by
    rw [q.normalSum_reversed, Point.mag_scale, abs_neg, abs_one, mul_one]
  rw [hmag] at harea' hnormal'
  refine ⟨harea'.trans harea.symm, ?_⟩
  rw [hnormal', hnormal, q.normalSum_reversed]
  simp only [Point.scale, Point.mk.injEq]
  refine ⟨?_, ?_, ?_⟩ <;> ring

/-- **A flat patch is made of four corners iff they span an area and are flat**, and both are read off
the product of the diagonals.  The product does not depend on where the corners are or which of them
comes first, only on the direction in which they are listed.  The points of a patch that is made are
as near to one plane as the corners were asked to be. -/
theorem ofCorners_flat (htol : 0 < tol) (q : Quad ℝ) :
    (q.normalSum = (q.third.sub q.first).cross (q.fourth.sub q.second) ∧
      (∀ d, (q.moved d).normalSum = q.normalSum) ∧
      (∀ k, (Quad.turned^[k] q).normalSum = q.normalSum) ∧
      q.reversed.normalSum = q.normalSum.scale (-1)) ∧
    ((∃ p, ofCorners q tol = .ok p) ↔ tol ≤ q.normalSum.mag ∧
      |(q.second.sub q.first).dot q.normalSum| ≤ tol * q.normalSum.mag) ∧
    (∀ p, ofCorners q tol = .ok p → p.Through q tol) ∧
    ∀ [Textual ℝ], Plane.read (.list (q.toList.map .point)) tol = ofCorners q tol := by
  refine ⟨⟨q.normalSum_eq_cross, q.normalSum_moved, q.normalSum_iterate_turned,
    q.normalSum_reversed⟩, ?_, fun p hp => through_of_ofCorners htol hp, read_points q tol⟩
  rw [exists_ofCorners_iff htol]
  exact ⟨fun h => ⟨h.spans, h.level⟩, fun h => ⟨h.1, h.2⟩⟩

/-- A unit square with one corner lifted by four. -/
def lifted : Quad ℝ := ⟨⟨0, 0, 0⟩, ⟨1, 0, 0⟩, ⟨1, 1, 4⟩, ⟨0, 1, 0⟩⟩

lemma normalSum_lifted : lifted.normalSum = ⟨-4, -4, 2⟩ ∧ lifted.normalSum.mag = 6 := by
  have hsum : lifted.normalSum = ⟨-4, -4, 2⟩ := by
    norm_num [lifted, Quad.normalSum, Point.add, Point.cross]
  refine ⟨hsum, ?_⟩
  rw [hsum, Point.mag, Point.dot, elementary_sqrt, Real.sqrt_eq_iff_mul_self_eq_of_pos] <;> norm_num

/-- The lifted square is flat within one, and not within a half. -/
theorem ofCorners_flat_lifted :
    (∃ p, ofCorners lifted 1 = .ok p ∧ p.Through lifted 1 ∧ p.area = 3) ∧
      ¬ ∃ p, ofCorners lifted (1 / 2) = .ok p := by
  obtain ⟨hsum, hmag⟩ := normalSum_lifted
  have hheight : (lifted.second.sub lifted.first).dot lifted.normalSum = -4 := by
    rw [hsum]
    norm_num [lifted, Point.sub, Point.dot]
  obtain ⟨-, hone, hthrough, -⟩ := ofCorners_flat one_pos lifted
  obtain ⟨-, hhalf, -, -⟩ := ofCorners_flat one_half_pos lifted
  rw [hheight, hmag] at hone hhalf
  obtain ⟨p, hp⟩ := hone.mpr (by norm_num)
  refine ⟨⟨p, hp, hthrough p hp, ?_⟩, fun h => ?_⟩
  · rw [(hthrough p hp).area_eq, hmag]
    norm_num
  · have hfar := (hhalf.mp h).2
    norm_num at hfar

end Plane

end Contour
