import Contour.Proofs.Difference

/-!
# Distance of points

Over `ℝ` the distance of two points is the Euclidean one, which brings the triangle inequality.
Lists of points are compared up to their order.

* `Point.dist_sq`, `Point.dist_triangle` — the square of a distance, and distance as a metric.
* `Point.abs_dot_le` — the Cauchy–Schwarz inequality for displacements.
* `Point.around` — the point of a circle at an angle; `dist_around_le` says that an arc is at least
  as long as its chord.
* `Matched`, `Intersection.Matches` — two lists of points that correspond one to one within a
  distance, and two results whose points do.
-/

namespace Contour

namespace Point

/-- A point as a vector of Euclidean space. -/
noncomputable def toSpace (p : Point ℝ) : EuclideanSpace ℝ (Fin 3) := !₂[p.x, p.y, p.z]

lemma dist_eq_sqrt (p q : Point ℝ) :
    p.dist q = √((p.x - q.x) ^ 2 + (p.y - q.y) ^ 2 + (p.z - q.z) ^ 2) := by
  show √((p.x - q.x) * (p.x - q.x) + (p.y - q.y) * (p.y - q.y) + (p.z - q.z) * (p.z - q.z)) = _
  congr 1
  ring

lemma dist_eq_toSpace (p q : Point ℝ) : p.dist q = Dist.dist p.toSpace q.toSpace := by
  rw [dist_eq_sqrt, EuclideanSpace.dist_eq, Fin.sum_univ_three]
  simp [toSpace, Real.dist_eq, sq_abs]

protected lemma dist_nonneg (p q : Point ℝ) : 0 ≤ p.dist q := Real.sqrt_nonneg _

protected lemma dist_triangle (p q r : Point ℝ) : p.dist r ≤ p.dist q + q.dist r := by
  simp only [dist_eq_toSpace]
  exact dist_triangle _ _ _

/-- Two points near a third are near each other. -/
lemma dist_le_of_near {p q m : Point ℝ} {ε δ : ℝ} (hp : p.dist m ≤ ε) (hq : q.dist m ≤ δ) :
    p.dist q ≤ ε + δ := by
  rw [Point.dist_comm] at hq
  exact (Point.dist_triangle p m q).trans (add_le_add hp hq)

@[simp] protected lemma dist_self (p : Point ℝ) : p.dist p = 0 := by simp [dist_eq_toSpace]

lemma dist_sq (p q : Point ℝ) :
    p.dist q ^ 2 = (p.x - q.x) ^ 2 + (p.y - q.y) ^ 2 + (p.z - q.z) ^ 2 := by
  rw [dist_eq_sqrt, Real.sq_sqrt (by positivity)]

lemma dist_eq_iff {p q : Point ℝ} {r : ℝ} (hr : 0 ≤ r) :
    p.dist q = r ↔ (p.x - q.x) ^ 2 + (p.y - q.y) ^ 2 + (p.z - q.z) ^ 2 = r ^ 2 := by
  rw [← dist_sq, sq_eq_sq₀ (Point.dist_nonneg p q) hr]

lemma dist_pos_iff {p q : Point ℝ} : 0 < p.dist q ↔ p ≠ q := by
  have hzero : p.dist q = 0 ↔ p = q := by
    rw [dist_eq_toSpace, dist_eq_zero]
    refine ⟨fun h => ?_, congrArg toSpace⟩
    have hcoord : ∀ i, p.toSpace i = q.toSpace i := fun i => by rw [h]
    rcases p with ⟨x, y, z⟩
    rcases q with ⟨x', y', z'⟩
    simpa [toSpace, Fin.forall_fin_succ] using hcoord
  rw [(Point.dist_nonneg p q).lt_iff_ne', Ne, hzero]

/-! ## Displacements -/

lemma dot_self_nonneg (p : Point ℝ) : 0 ≤ p.dot p :=
  add_nonneg (add_nonneg (mul_self_nonneg _) (mul_self_nonneg _)) (mul_self_nonneg _)

lemma mag_mul_self (p : Point ℝ) : p.mag * p.mag = p.dot p := Real.mul_self_sqrt p.dot_self_nonneg

/-- The Cauchy–Schwarz inequality. -/
lemma abs_dot_le (p q : Point ℝ) : |p.dot q| ≤ p.mag * q.mag := by
  refine abs_le_of_sq_le_sq ?_ (mul_nonneg (Real.sqrt_nonneg _) (Real.sqrt_nonneg _))
  -- the square of the vector product is what is missing
  have hcross := (p.cross q).dot_self_nonneg
  rw [sq (p.mag * q.mag), mul_mul_mul_comm, mag_mul_self, mag_mul_self]
  simp only [dot, cross] at hcross ⊢
  linarith

/-! ## Points around a center -/

/-- The point of a circle at an angle. -/
noncomputable def around (center : Point ℝ) (radius angle : ℝ) : Point ℝ :=
  ⟨center.x + radius * Real.cos angle, center.y + radius * Real.sin angle, center.z⟩

/-- Over `ℝ` no angle is infinite, so the point of a circle at an angle always exists. -/
lemma polar_eq (center : Point ℝ) (radius angle : ℝ) :
    center.polar radius angle = .ok (center.around radius angle) := rfl

lemma around_add_turns (center : Point ℝ) (radius angle : ℝ) (n : ℤ) :
    center.around radius (angle + n * (2 * Real.pi)) = center.around radius angle := by
  simp [around, Real.cos_add_int_mul_two_pi, Real.sin_add_int_mul_two_pi]

/-- The chord between two angles of a circle depends on their difference only. -/
lemma dist_around_sq (center : Point ℝ) (radius θ φ : ℝ) :
    (center.around radius θ).dist (center.around radius φ) ^ 2
      = radius ^ 2 * (2 - 2 * Real.cos (θ - φ)) := by
  have hθ := Real.sin_sq_add_cos_sq θ
  have hφ := Real.sin_sq_add_cos_sq φ
  rw [dist_sq, Real.cos_sub]
  simp only [around]
  linear_combination radius ^ 2 * hθ + radius ^ 2 * hφ

/-- A chord is no longer than the arc over it. -/
lemma dist_around_le (center : Point ℝ) {radius : ℝ} (hr : 0 ≤ radius) (θ φ : ℝ) :
    (center.around radius θ).dist (center.around radius φ) ≤ radius * |θ - φ| := by
  have hcos : 2 - 2 * Real.cos (θ - φ) ≤ (θ - φ) ^ 2 := by
    linarith [Real.one_sub_sq_div_two_le_cos (x := θ - φ)]
  refine le_of_sq_le_sq ?_ (by positivity)
  rw [dist_around_sq, mul_pow, sq_abs]
  exact mul_le_mul_of_nonneg_left hcos (sq_nonneg radius)

end Point

/-! ## Matched lists -/

/-- Two lists of points correspond one to one, in some order, within a distance. -/
def Matched (ε : ℝ) (ps qs : List (Point ℝ)) : Prop :=
  ∃ rs, List.Forall₂ (fun p r => p.dist r ≤ ε) ps rs ∧ rs.Perm qs

namespace Matched

variable {ε : ℝ} {ps qs : List (Point ℝ)}

lemma length_eq (h : Matched ε ps qs) : ps.length = qs.length := by
  obtain ⟨rs, hrs, hperm⟩ := h
  exact hrs.length_eq.trans hperm.length_eq

lemma of_forall₂ (h : List.Forall₂ (fun p q => p.dist q ≤ ε) ps qs) : Matched ε ps qs :=
  ⟨qs, h, List.Perm.refl _⟩

lemma of_perm (hε : 0 ≤ ε) (h : ps.Perm qs) : Matched ε ps qs :=
  ⟨ps, List.forall₂_same.2 fun p _ => by simpa using hε, h⟩

lemma mono {δ : ℝ} (h : Matched ε ps qs) (hle : ε ≤ δ) : Matched δ ps qs := by
  obtain ⟨rs, hrs, hperm⟩ := h
  exact ⟨rs, hrs.imp fun _ _ hpr => hpr.trans hle, hperm⟩

/-- Reordering either list keeps a match. -/
lemma perm {ps' qs' : List (Point ℝ)} (h : Matched ε ps qs) (hps : ps'.Perm ps)
    (hqs : qs.Perm qs') : Matched ε ps' qs' := by
  obtain ⟨rs, hrs, hperm⟩ := h
  obtain ⟨us, hus, hrs'⟩ := List.perm_comp_forall₂ hps hrs
  exact ⟨us, hus, (hrs'.trans hperm).trans hqs⟩

/-- Two lists that are near the same places, in any order, match. -/
lemma of_near {δ : ℝ} {ms ms' : List (Point ℝ)}
    (hps : List.Forall₂ (fun p m => p.dist m ≤ ε) ps ms)
    (hqs : List.Forall₂ (fun q m => q.dist m ≤ δ) qs ms') (hperm : ms.Perm ms') :
    Matched (ε + δ) ps qs := by
  obtain ⟨rs, hrs, hrsqs⟩ := List.perm_comp_forall₂ hperm hqs.flip
  refine ⟨rs, ?_, hrsqs⟩
  clear hqs hperm hrsqs
  induction hps generalizing rs with
  | nil =>
      cases hrs
      exact .nil
  | cons hp _ ih =>
      cases hrs with
      | cons hr hrest =>
          exact .cons (Point.dist_le_of_near hp hr) (ih _ hrest)

lemma singleton_iff {p q : Point ℝ} : Matched ε [p] [q] ↔ p.dist q ≤ ε := by
  constructor
  · rintro ⟨rs, hrs, hperm⟩
    rw [List.perm_singleton.mp hperm] at hrs
    exact (List.forall₂_cons.mp hrs).1
  · exact fun h => of_forall₂ (.cons h .nil)

lemma pair_iff {p p' q q' : Point ℝ} :
    Matched ε [p, p'] [q, q'] ↔
      (p.dist q ≤ ε ∧ p'.dist q' ≤ ε) ∨ (p.dist q' ≤ ε ∧ p'.dist q ≤ ε) := by
  constructor
  · rintro ⟨rs, hrs, hperm⟩
    rcases List.perm_pair.mp hperm with rfl | rfl
    · obtain ⟨h, hrest⟩ := List.forall₂_cons.mp hrs
      exact .inl ⟨h, (List.forall₂_cons.mp hrest).1⟩
    · obtain ⟨h, hrest⟩ := List.forall₂_cons.mp hrs
      exact .inr ⟨h, (List.forall₂_cons.mp hrest).1⟩
  · rintro (⟨h, h'⟩ | ⟨h, h'⟩)
    · exact of_forall₂ (.cons h (.cons h' .nil))
    · exact ⟨[q', q], .cons h (.cons h' .nil), List.Perm.swap _ _ _⟩

end Matched

/-- Two results have one flag, as many points, and points that correspond within a distance. -/
structure Intersection.Matches (ε : ℝ) (r s : Intersection ℝ) : Prop where
  flag_eq : s.flag = r.flag
  size_eq : s.size = r.size
  points : Matched ε r.points s.points

namespace Intersection.Matches

variable {ε : ℝ} {r s : Intersection ℝ}

lemma of_matched (hflag : s.flag = r.flag) (h : Matched ε r.points s.points) : Matches ε r s :=
  ⟨hflag, h.length_eq.symm, h⟩

protected lemma refl (hε : 0 ≤ ε) (r : Intersection ℝ) : Matches ε r r :=
  of_matched rfl (Matched.of_perm hε (List.Perm.refl _))

lemma mono {δ : ℝ} (h : Matches ε r s) (hle : ε ≤ δ) : Matches δ r s :=
  ⟨h.flag_eq, h.size_eq, h.points.mono hle⟩

end Intersection.Matches

end Contour
