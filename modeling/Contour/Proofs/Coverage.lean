import Contour.Proofs.Circles

/-!
# Directions that a curve covers

The kernel looks for a direction between the two angles of an arc as it is, one turn later and one
turn earlier.  An arc starts within half a turn of angle zero, so no other turn can bring a direction
there that these do not.

* `Angle.inRange_iff`, `Angle.inRange_iff_exists_turns` — three turns stand for all of them: between
  the angles of arcs whatever the slack, and in ranges of any length.
* `Curve.Spans` — some whole number of turns brings a direction onto a curve, up to an arc length.
* `Curve.reaches` — the test once its division is carried out; `Curve.reaches_iff` says that it
  computes `Curve.Spans`.
* `Curve.contains_iff` — a curve accepts what lies near its circle in a direction that it spans.
-/

namespace Contour

open Real (pi)

namespace Angle

variable {angle start stop slack : ℝ}

lemma inRange_cases : inRange angle start stop slack = true ↔
    (start - slack ≤ angle ∧ angle ≤ stop + slack) ∨
    (start - slack ≤ angle + 2 * pi ∧ angle + 2 * pi ≤ stop + slack) ∨
    (start - slack ≤ angle - 2 * pi ∧ angle - 2 * pi ≤ stop + slack) := by
  simp [inRange]

/-- A further turn brings an angle between two others only if one turn does, as long as one turn on
does not fall short of the start then, and one turn back not of the end. -/
lemma inRange_iff_of_reached
    (hnext : angle + 4 * pi ≤ stop + slack → start - slack ≤ angle + 2 * pi)
    (hprevious : start - slack ≤ angle - 4 * pi → angle - 2 * pi ≤ stop + slack) :
    inRange angle start stop slack = true ↔
      ∃ n : ℤ, start - slack ≤ angle + n * (2 * pi) ∧ angle + n * (2 * pi) ≤ stop + slack := by
  rw [inRange_cases]
  constructor
  · rintro (h | h | h)
    · exact ⟨0, by simpa using h⟩
    · exact ⟨1, by simpa using h⟩
    · exact ⟨-1, by simpa [sub_eq_add_neg] using h⟩
  · rintro ⟨n, hlow, hhigh⟩
    have hmono : ∀ {m k : ℤ}, m ≤ k → (m : ℝ) * (2 * pi) ≤ k * (2 * pi) :=
      fun h => mul_le_mul_of_nonneg_right (by exact_mod_cast h) turn_pos.le
    obtain hn | rfl | rfl | rfl | hn : n ≤ -2 ∨ n = -1 ∨ n = 0 ∨ n = 1 ∨ 2 ≤ n := by omega
    · -- two turns back are not before the start, so one turn back is not either
      have hn := hmono hn
      push_cast at hn
      exact .inr (.inr ⟨by linarith [turn_pos], hprevious (by linarith)⟩)
    · exact .inr (.inr (by simpa [sub_eq_add_neg] using And.intro hlow hhigh))
    · exact .inl (by simpa using And.intro hlow hhigh)
    · exact .inr (.inl (by simpa using And.intro hlow hhigh))
    · -- two turns on are not beyond the end, so one turn on is not either
      have hn := hmono hn
      push_cast at hn
      exact .inr (.inl ⟨hnext (by linarith), by linarith [turn_pos]⟩)

/-- **Three turns are enough.**  A direction that some number of turns brings between two angles is
brought there by none, or by one turn either way, whatever the slack. -/
lemma inRange_iff (hangle : -pi < angle) (hangle' : angle ≤ pi) (hstart : -pi < start)
    (hstart' : start ≤ pi) (hle : start ≤ stop) (hturn : stop < start + 2 * pi) :
    inRange angle start stop slack = true ↔
      ∃ n : ℤ, start - slack ≤ angle + n * (2 * pi) ∧ angle + n * (2 * pi) ≤ stop + slack :=
  inRange_iff_of_reached (fun h => by linarith) (fun h => by linarith)

/-- **Three turns are enough for ranges of any length.**  An angle within half a turn of zero is
brought between two others by some number of turns exactly if it is by none, or by one turn either
way, as long as the first of the two is within half a turn of zero as well and the slack is not
negative. -/
theorem inRange_iff_exists_turns (hangle : angle ∈ Set.Icc (-pi) pi)
    (hstart : start ∈ Set.Icc (-pi) pi) (hle : start ≤ stop) (hslack : 0 ≤ slack) :
    inRange angle start stop slack = true ↔
      ∃ k : ℤ, angle + 2 * pi * k ∈ Set.Icc (start - slack) (stop + slack) := by
  obtain ⟨hlow, hhigh⟩ := hangle
  obtain ⟨hlow', hhigh'⟩ := hstart
  rw [inRange_iff_of_reached (fun _ => by linarith) (fun _ => by linarith)]
  refine exists_congr fun k => ?_
  rw [Set.mem_Icc, mul_comm (k : ℝ)]

/-- Three turns on, the angle half a turn back is within a range of two turns and a half; the test
finds it there one turn on. -/
theorem inRange_iff_exists_turns_long :
    inRange (-pi) pi (6 * pi) 1 = true ∧
      ∃ k : ℤ, -pi + 2 * pi * k ∈ Set.Icc (pi - 1) (6 * pi + 1) := by
  have hpi := Real.pi_pos
  have hmem : ∃ k : ℤ, -pi + 2 * pi * k ∈ Set.Icc (pi - 1) (6 * pi + 1) := by
    refine ⟨3, ?_, ?_⟩
    · push_cast
      linarith
    · push_cast
      linarith
  have hiff : inRange (-pi) pi (6 * pi) 1 = true ↔
      ∃ k : ℤ, -pi + 2 * pi * k ∈ Set.Icc (pi - 1) (6 * pi + 1) :=
    inRange_iff_exists_turns ⟨le_rfl, by linarith⟩ ⟨by linarith, le_rfl⟩ (by linarith) zero_le_one
  exact ⟨hiff.mpr hmem, hmem⟩

end Angle

namespace Curve

variable {c d : Curve ℝ} {tol : ℝ}

/-- Some whole number of turns brings the direction of a point between the angles of a curve, up to
an angle of arc length `tol`.  A circle spans every direction. -/
def Spans (c : Curve ℝ) (tol : ℝ) (p : Point ℝ) : Prop :=
  match c with
  | arc a => ∃ n : ℤ, a.startAngle - tol / a.radius ≤ p.angleXY a.center + n * (2 * pi) ∧
      p.angleXY a.center + n * (2 * pi) ≤ a.endAngle + tol / a.radius
  | circle _ => True

/-- Whether a curve covers a direction, up to an angle of arc length `tol`. -/
noncomputable def reaches (c : Curve ℝ) (tol : ℝ) (p : Point ℝ) : Bool :=
  match c with
  | arc a => Angle.inRange (p.angleXY a.center) a.startAngle a.endAngle (tol / a.radius)
  | circle _ => true

lemma covers_eq (hc : c.support.Proper) (p : Point ℝ) : c.covers p tol = .ok (c.reaches tol p) := by
  cases c with
  | arc a =>
      have hradius : a.radius ≠ 0 := hc.radius_pos.ne'
      simp only [covers, Arc.covers, quotient_of_ne _ hradius]
      rfl
  | circle k => rfl

lemma bothCover_eq (hc : c.support.Proper) (hd : d.support.Proper) (p : Point ℝ) :
    c.bothCover d tol p = .ok (c.reaches tol p && d.reaches tol p) := by
  rw [bothCover, covers_eq hc, covers_eq hd]
  cases c.reaches tol p <;> rfl

/-- The test finds a direction iff some number of turns brings it onto the curve. -/
lemma reaches_iff (hc : (Segment.curve c).Made) (p : Point ℝ) :
    c.reaches tol p = true ↔ c.Spans tol p := by
  cases c with
  | arc a =>
      have ha := hc.arc
      exact Angle.inRange_iff (Complex.neg_pi_lt_arg _) (Complex.arg_le_pi _) ha.neg_pi_lt ha.le_pi
        ha.start_le_end ha.end_lt_turn
  | circle k => exact iff_of_true rfl trivial

lemma Spans.mono (hc : c.support.Proper) {tol' : ℝ} {p : Point ℝ} (h : c.Spans tol p)
    (hle : tol ≤ tol') : c.Spans tol' p := by
  cases c with
  | arc a =>
      have hslack : tol / a.radius ≤ tol' / a.radius := div_le_div_of_nonneg_right hle hc.radius_pos.le
      obtain ⟨n, hlow, hhigh⟩ := h
      exact ⟨n, by linarith, by linarith⟩
  | circle k => trivial

/-! ## What a curve accepts -/

/-- The test has a result, which is positive iff the distance from the center is nearly the radius and
the curve spans the direction. -/
lemma contains_eq (hc : (Segment.curve c).Made) (p : Point ℝ) (tol : ℝ) :
    ∃ accepted, (Segment.curve c).contains p tol = .ok accepted ∧
      (accepted = true ↔ |p.dist c.center - c.radius| ≤ tol ∧ c.Spans tol p) := by
  show ∃ accepted, c.contains p tol = _ ∧ _
  rw [contains, elementary_abs, covers_eq hc.support]
  split_ifs with hfar
  · exact ⟨false, rfl, iff_of_false Bool.false_ne_true fun h => absurd h.1 (not_le.mpr hfar)⟩
  · exact ⟨_, rfl, (reaches_iff hc p).trans (and_iff_right (not_lt.mp hfar)).symm⟩

/-- **A curve accepts what lies near its circle in a direction that it spans**, and nothing else. -/
lemma contains_iff (hc : (Segment.curve c).Made) {p : Point ℝ} :
    c.contains p tol = .ok true ↔ |p.dist c.center - c.radius| ≤ tol ∧ c.Spans tol p := by
  obtain ⟨accepted, heq, hiff⟩ := contains_eq hc p tol
  change c.contains p tol = _ at heq
  rw [heq, ← hiff, Except.ok.injEq]

lemma contains_of_mem_outline (hc : (Segment.curve c).Made) {p : Point ℝ}
    (hp : p ∈ c.support.outline) (htol : 0 ≤ tol) (hspans : c.Spans tol p) :
    c.contains p tol = .ok true := by
  refine (contains_iff hc).mpr ⟨?_, hspans⟩
  rwa [show p.dist c.center = c.radius from hp.2, sub_self, abs_zero]

end Curve

end Contour
