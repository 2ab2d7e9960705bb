import Contour.Proofs.CloseCircles

/-!
# What a segment accepts

A segment is split only at points that it accepts, and it accepts them by a measure of its own.

* `Line.Near`, `Line.contains_iff_near` — a line accepts what lies near one of its points.
* `Arc.contains_of_stands`, `Arc.contains_of_sees` — an arc accepts what stands near its circle between
  its angles, and what it sees there; `Arc.contains_ends` says that it accepts its own ends.
-/

namespace Contour

open Real (pi)

/-! ## What a line accepts -/

namespace Line

variable {a b l : Line ℝ} {p : Point ℝ} {tol : ℝ}

/-- A point lies within a distance of some point of a line. -/
def Near (l : Line ℝ) (ε : ℝ) (p : Point ℝ) : Prop := ∃ t, 0 ≤ t ∧ t ≤ 1 ∧ p.dist (l.point t) ≤ ε

/-- The theorem of Pythagoras, for a point and its shadow. -/
lemma dist_point_sq (hmag : l.along.mag ≠ 0) (p : Point ℝ) (t : ℝ) :
    p.dist (l.point t) ^ 2
      = p.dist (l.point (l.shadow p)) ^ 2 + ((l.shadow p - t) * l.along.mag) ^ 2 := by
  have hparam : l.shadow p * (l.along.mag * l.along.mag) = (p.sub l.start).dot l.along :=
    div_mul_cancel₀ _ (mul_ne_zero hmag hmag)
  rw [mul_pow, sq l.along.mag]
  rw [Point.mag_mul_self] at hparam ⊢
  rw [Point.dist_sq, Point.dist_sq]
  simp only [point, Point.lerp, along, Point.sub, Point.dot] at hparam ⊢
  linear_combination (-2 * (l.shadow p - t)) * hparam

/-- Of two points of a straight line the one nearer to the shadow is nearer. -/
lemma dist_point_le_of_nearer (hmag : 0 < l.along.mag) {s t : ℝ}
    (h : |l.shadow p - s| ≤ |l.shadow p - t|) : p.dist (l.point s) ≤ p.dist (l.point t) := by
  refine le_of_sq_le_sq ?_ (Point.dist_nonneg _ _)
  rw [dist_point_sq hmag.ne' p s, dist_point_sq hmag.ne' p t, mul_pow, mul_pow, ← sq_abs (_ - s),
    ← sq_abs (_ - t)]
  gcongr

/-- No point of a straight line is nearer than the shadow. -/
lemma dist_point_shadow_le (hmag : 0 < l.along.mag) (t : ℝ) :
    p.dist (l.point (l.shadow p)) ≤ p.dist (l.point t) := by
  refine dist_point_le_of_nearer hmag ?_
  rw [sub_self, abs_zero]
  exact abs_nonneg _

/-- **A line accepts what lies near one of its points**, and nothing else. -/
lemma contains_iff_near (hmag : 0 < l.along.mag) : l.contains p tol = .ok true ↔ l.Near tol p := by
  rw [contains_iff hmag.ne']
  constructor
  · intro h
    split_ifs at h with hout
    · rcases h with hstart | hstop
      · exact ⟨0, le_rfl, zero_le_one, by rwa [point_zero]⟩
      · exact ⟨1, zero_le_one, le_rfl, by rwa [point_one]⟩
    · rw [not_or, not_lt, not_lt] at hout
      exact ⟨_, hout.1, hout.2, h⟩
  · rintro ⟨t, h0, h1, hnear⟩
    split_ifs with hout
    · rcases hout with hlow | hhigh
      · left
        rw [← l.point_zero]
        refine (dist_point_le_of_nearer hmag ?_).trans hnear
        rw [abs_of_nonpos (by linarith), abs_of_nonpos (by linarith)]
        linarith
      · right
        rw [← l.point_one]
        refine (dist_point_le_of_nearer hmag ?_).trans hnear
        rw [abs_of_nonneg (by linarith), abs_of_nonneg (by linarith)]
        linarith
    · exact (dist_point_shadow_le hmag t).trans hnear

lemma Near.mono {ε δ : ℝ} (h : l.Near ε p) (hle : ε ≤ δ) : l.Near δ p := by
  obtain ⟨t, h0, h1, hnear⟩ := h
  exact ⟨t, h0, h1, hnear.trans hle⟩

lemma near_of_mem_trace (h : p ∈ l.trace) {ε : ℝ} (hε : 0 ≤ ε) : l.Near ε p := by
  obtain ⟨t, h0, h1, rfl⟩ := h
  refine ⟨1 - t, by linarith, by linarith, ?_⟩
  have hpoint : l.stop.lerp l.start t = l.point (1 - t) := by
    simp only [point, Point.lerp, Point.mk.injEq]
    refine ⟨?_, ?_, ?_⟩ <;> ring
  rwa [hpoint, Point.dist_self]

/-- What lies near the point at a parameter that a line reaches lies near the line. -/
lemma near_of_reaches (hmag : 0 < l.along.mag) {t δ ε : ℝ} (hδ : 0 ≤ δ) (h : l.Reaches t δ)
    (hnear : p.dist (l.point t) ≤ ε) : l.Near (ε + δ) p :=
  ⟨min (max t 0) 1, le_min (le_max_right _ _) zero_le_one, min_le_right _ _,
    Point.dist_le_of_near hnear (dist_point_clamp hmag hδ h)⟩

end Line

/-! ## What an arc accepts -/

namespace Arc

variable {a b : Arc ℝ} {p : Point ℝ} {φ slack : ℝ}

/-- An arc accepts what stands near its circle, between its angles or a little beyond. -/
lemma contains_of_stands (hb : (Segment.curve (.arc b)).Made)
    (hp : (Curve.arc b).support.Stands radiusTol φ p)
    (hlow : b.startAngle - radiusTol / b.radius ≤ φ) (hhigh : φ ≤ b.endAngle + radiusTol / b.radius) :
    (Curve.arc b).contains p radiusTol = .ok true := by
  obtain ⟨n, hn⟩ := hp.direction
  exact (Curve.contains_iff hb).mpr ⟨hp.near, n, hlow.trans_eq hn, hn.symm.trans_le hhigh⟩

/-- **An arc accepts what it sees between its angles**, even if the point stands near another circle
and is a little beyond the arc. -/
lemma contains_of_sees (hb : (Segment.curve (.arc b)).Made) {c : Circle ℝ} {ε : ℝ} (hc : c.Proper)
    (hsees : (Curve.arc b).support.Sees c slack p) (hp : c.Stands ε φ p)
    (hlow : b.startAngle - slack ≤ φ) (hhigh : φ ≤ b.endAngle + slack) :
    (Curve.arc b).contains p radiusTol = .ok true := by
  have hpos : 0 < b.radius := hb.arc.radius_pos
  by_cases hlarge : radiusTol < pi * b.radius
  · obtain ⟨ψ, hψ, hclose⟩ := hp.seen hc hb.support hsees hlarge
    have hangle : |ψ - φ| + slack ≤ radiusTol / b.radius := by
      rw [le_div_iff₀ hpos, mul_comm]
      exact hclose
    obtain ⟨hbefore, hafter⟩ := abs_le.mp (le_refl |ψ - φ|)
    exact contains_of_stands hb hψ (by linarith) (by linarith)
  · -- the tolerance is more than half a turn, so every direction is near the start
    obtain ⟨n, hn⟩ := Angle.exists_turns_near (p.angleXY b.center) b.startAngle
    have hturn : pi ≤ radiusTol / b.radius := (le_div_iff₀ hpos).mpr (not_lt.mp hlarge)
    rw [abs_le] at hn
    exact (Curve.contains_iff hb).mpr ⟨hsees.near, n, by linarith, by linarith [hb.arc.start_le_end]⟩

/-- An arc accepts its own ends. -/
lemma contains_ends (ha : (Segment.curve (.arc a)).Built) :
    ∀ p ∈ [a.start, a.stop], (Curve.arc a).contains p radiusTol = .ok true := by
  have hslack : 0 ≤ radiusTol / a.radius := div_nonneg radiusTol_pos.le ha.arc.radius_pos.le
  have hle := ha.arc.start_le_end
  intro p hp
  rcases List.mem_pair.mp hp with rfl | rfl
  · exact contains_of_stands ha.made ha.sound.start_stands (by linarith) (by linarith)
  · exact contains_of_stands ha.made ha.sound.stop_stands (by linarith) (by linarith)

end Arc

end Contour
