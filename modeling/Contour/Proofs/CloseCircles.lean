import Contour.Proofs.Reachable

/-!
# Circles that are close

Circles whose centers and radii differ by little pass for one.  This file says how a point that stands
near one of them lies to the other: how far off it is, and in which direction.

* `Point.exists_turns_of_dist`, `Point.exists_turns_of_centers` — how far two directions differ that
  belong to two points of a circle, or to two centers.
* `Circle.Sees` — the bounds within which a point that stands near one circle does not get lost from
  another; `Circle.sees_self` says that they hold on one circle.
* `Circle.Sees.near`, `Circle.Stands.seen` — what follows from them.
-/

namespace Contour

open Real (pi)

/-! ## Directions -/

/-- Some number of whole turns brings an angle within half a turn of another. -/
lemma Angle.exists_turns_near (θ φ : ℝ) : ∃ n : ℤ, |θ + n * (2 * pi) - φ| ≤ pi := by
  refine ⟨round ((φ - θ) / (2 * pi)), ?_⟩
  have hround := abs_sub_round ((φ - θ) / (2 * pi))
  have hrest : θ + round ((φ - θ) / (2 * pi)) * (2 * pi) - φ
      = -((φ - θ) / (2 * pi) - round ((φ - θ) / (2 * pi))) * (2 * pi) := by
    field_simp
    ring
  rw [hrest, abs_mul, abs_neg, abs_of_pos Real.two_pi_pos]
  linarith [mul_le_mul_of_nonneg_right hround Real.two_pi_pos.le]

namespace Point

lemma dist_around_radius (c : Point ℝ) (r s θ : ℝ) :
    (c.around r θ).dist (c.around s θ) = |r - s| := by
  rw [dist_eq_iff (abs_nonneg _), sq_abs]
  simp only [around]
  linear_combination (r - s) ^ 2 * Real.sin_sq_add_cos_sq θ

/-- Up to whole turns, two points of a circle are no further apart along it than a half of `π` times
their distance. -/
lemma exists_turns_of_dist (center : Point ℝ) {radius : ℝ} (hradius : 0 ≤ radius) (θ φ : ℝ) :
    ∃ n : ℤ, radius * |θ + n * (2 * pi) - φ|
      ≤ pi / 2 * (center.around radius θ).dist (center.around radius φ) := by
  obtain ⟨n, hn⟩ := Angle.exists_turns_near θ φ
  refine ⟨n, ?_⟩
  set x := θ + n * (2 * pi) - φ with hx
  have hjordan : 2 / pi * |x / 2| ≤ |Real.sin (x / 2)| :=
    Real.mul_abs_le_abs_sin (by rw [abs_div, abs_two]; linarith)
  have hchord : (center.around radius θ).dist (center.around radius φ)
      = 2 * radius * |Real.sin (x / 2)| := by
    have hhalf := Real.cos_sq' (x / 2)
    have hdouble := Real.cos_sq (x / 2)
    have hturns : Real.cos (θ - φ) = Real.cos x := by
      rw [hx, add_sub_right_comm, Real.cos_add_int_mul_two_pi]
    rw [← sq_eq_sq₀ (Point.dist_nonneg _ _) (by positivity), dist_around_sq, hturns, mul_pow, sq_abs]
    rw [mul_div_cancel₀ x two_ne_zero] at hdouble
    linear_combination 4 * radius ^ 2 * (hdouble - hhalf)
  rw [hchord]
  rw [abs_div, abs_two, div_mul_div_comm, div_le_iff₀ (by positivity)] at hjordan
  nlinarith

/-- The law of cosines, for two centers and a point. -/
lemma dist_centers_sq {p c d : Point ℝ} (hc : p.z = c.z) (hd : p.z = d.z) :
    c.dist d ^ 2 = (p.dist c * Real.sin (p.angleXY d - p.angleXY c)) ^ 2
      + (p.dist d - p.dist c * Real.cos (p.angleXY d - p.angleXY c)) ^ 2 := by
  have hpc := around_angleXY hc
  have hpd := around_angleXY hd
  have hx : c.x - d.x = p.dist d * Real.cos (p.angleXY d) - p.dist c * Real.cos (p.angleXY c) := by
    have h := congrArg Point.x (hpc.trans hpd.symm)
    simp only [around] at h
    linarith
  have hy : c.y - d.y = p.dist d * Real.sin (p.angleXY d) - p.dist c * Real.sin (p.angleXY c) := by
    have h := congrArg Point.y (hpc.trans hpd.symm)
    simp only [around] at h
    linarith
  rw [dist_sq, hx, hy, hc.symm.trans hd, sub_self, Real.sin_sub, Real.cos_sub]
  linear_combination (p.dist d ^ 2
    - p.dist c ^ 2 * (Real.sin (p.angleXY c) ^ 2 + Real.cos (p.angleXY c) ^ 2))
      * Real.sin_sq_add_cos_sq (p.angleXY d)

/-- **Seen from two centers**, a point that is further from one of them than they are apart lies in
directions that differ by no more than an angle whose sine is the quotient of the two distances. -/
lemma exists_turns_of_centers {p c d : Point ℝ} (hc : p.z = c.z) (hd : p.z = d.z)
    (hfar : c.dist d < p.dist c) :
    ∃ n : ℤ, |p.angleXY d + n * (2 * pi) - p.angleXY c| ≤ Real.arcsin (c.dist d / p.dist c) := by
  obtain ⟨n, hn⟩ := Angle.exists_turns_near (p.angleXY d) (p.angleXY c)
  refine ⟨n, ?_⟩
  have hpos : 0 < p.dist c := (Point.dist_nonneg c d).trans_lt hfar
  have hlaw := dist_centers_sq hc hd
  rw [← Real.sin_add_int_mul_two_pi _ n, ← Real.cos_add_int_mul_two_pi _ n, sub_add_eq_add_sub] at hlaw
  set x := p.angleXY d + n * (2 * pi) - p.angleXY c with hx
  have hsin : |Real.sin x| ≤ c.dist d / p.dist c := by
    have hleg : |p.dist c * Real.sin x| ≤ c.dist d := by
      refine abs_le_of_sq_le_sq ?_ (Point.dist_nonneg c d)
      rw [hlaw]
      exact le_add_of_nonneg_right (sq_nonneg _)
    rw [abs_mul, abs_of_pos hpos] at hleg
    rwa [le_div_iff₀ hpos, mul_comm]
  -- the centers would be as far apart as the point if the directions differed by a right angle
  have hcos : 0 < Real.cos x := by
    by_contra hnot
    have hproduct : p.dist d * p.dist c * Real.cos x ≤ 0 :=
      mul_nonpos_of_nonneg_of_nonpos (mul_nonneg (Point.dist_nonneg _ _) hpos.le) (not_lt.mp hnot)
    have hsq : p.dist c ^ 2 ≤ c.dist d ^ 2 := by
      rw [hlaw]
      nlinarith [Real.sin_sq_add_cos_sq x, sq_nonneg (p.dist d)]
    exact absurd (le_of_sq_le_sq hsq (Point.dist_nonneg c d)) (not_le.mpr hfar)
  have hacute : |x| ≤ pi / 2 := by
    by_contra hobtuse
    rw [← Real.cos_abs] at hcos
    exact absurd (Real.cos_nonpos_of_pi_div_two_le_of_le (not_le.mp hobtuse).le (by linarith))
      (not_le.mpr hcos)
  calc |x| = Real.arcsin (Real.sin |x|) := (Real.arcsin_sin (by linarith [abs_nonneg x]) hacute).symm
    _ ≤ Real.arcsin (c.dist d / p.dist c) := by
        rw [← Real.abs_sin_eq_sin_abs_of_abs_le_pi hn]
        exact Real.monotone_arcsin hsin

end Point

/-! ## What is seen from a close circle -/

namespace Circle

variable {c d : Circle ℝ} {p : Point ℝ} {ε φ slack : ℝ}

/-- A point that stands near the circle `c` does not get lost from `d`.  Centers, radii and the distance
of the point from `c` leave it within the tolerance of `d`; and either all directions are within that
tolerance, or the two directions of the point are, with some slack for an arc length. -/
structure Sees (d c : Circle ℝ) (slack : ℝ) (p : Point ℝ) : Prop where
  close : c.center.dist d.center + |c.radius - d.radius| + |p.dist c.center - c.radius| ≤ radiusTol
  directed : pi * d.radius ≤ radiusTol ∨ c.center.dist d.center < p.dist c.center ∧
    d.radius * (Real.arcsin (c.center.dist d.center / p.dist c.center) + slack) ≤ radiusTol

/-- What stands near a circle, off its center, is seen from there. -/
lemma sees_self (hnear : |p.dist c.center - c.radius| ≤ radiusTol) (hpos : 0 < p.dist c.center)
    (hslack : c.radius * slack ≤ radiusTol) : c.Sees c slack p where
  close := by rwa [Point.dist_self, sub_self, abs_zero, add_zero, zero_add]
  directed := by
    rw [Point.dist_self, zero_div, Real.arcsin_zero, zero_add]
    exact .inr ⟨hpos, hslack⟩

/-- What is seen from a circle is near it. -/
lemma Sees.near (h : d.Sees c slack p) : |p.dist d.center - d.radius| ≤ radiusTol := by
  have hclose := h.close
  have hoff := abs_le.mp (le_refl |p.dist c.center - c.radius|)
  have hradius := abs_le.mp (le_refl |c.radius - d.radius|)
  have hto := Point.dist_triangle p c.center d.center
  have hback := Point.dist_triangle p d.center c.center
  rw [Point.dist_comm d.center] at hback
  rw [abs_le]
  constructor <;> linarith

/-- **What stands near a circle stands near one that sees it, at nearly the same angle**, unless that
one is so small that angles say nothing within its tolerance. -/
lemma Stands.seen (hc : c.Proper) (hd : d.Proper) (hp : c.Stands ε φ p) (h : d.Sees c slack p)
    (hlarge : radiusTol < pi * d.radius) :
    ∃ ψ, d.Stands radiusTol ψ p ∧ d.radius * (|ψ - φ| + slack) ≤ radiusTol := by
  obtain ⟨hfar, hslack⟩ := h.directed.resolve_left (not_le.mpr hlarge)
  obtain ⟨m, hm⟩ := hp.direction
  obtain ⟨n, hn⟩ := Point.exists_turns_of_centers (hp.planar.trans hc.planar.symm)
    (hp.planar.trans hd.planar.symm) hfar
  refine ⟨p.angleXY d.center + (n + m : ℤ) * (2 * pi), ⟨hp.planar, h.near, n + m, rfl⟩, ?_⟩
  have hdiff : p.angleXY d.center + (n + m : ℤ) * (2 * pi) - φ
      = p.angleXY d.center + n * (2 * pi) - p.angleXY c.center := by
    rw [hm]
    push_cast
    ring
  rw [hdiff]
  refine (mul_le_mul_of_nonneg_left ?_ hd.radius_pos.le).trans hslack
  linarith

end Circle

end Contour
