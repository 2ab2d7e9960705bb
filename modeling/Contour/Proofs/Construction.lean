import Contour.Proofs.Distance
import Contour.Proofs.Turns

/-!
# What construction guarantees

Segments are checked before they exist.  This file reads the checks back as facts about the
segments that pass them, mostly over `ℝ`.

* `Segment.Built`, `Segment.Made` — the segments that the constructors return under the default
  tolerances, and under any tolerances.
* `Line.Proper`, `Circle.Proper`, `Arc.Proper` — what the checks guarantee of each kind.
* `Segment.Made.line`, `Segment.Made.support`, `Segment.Made.arc` — every segment that is made is
  proper.
* `Arc.Stored` — what construction writes into an arc, in any arithmetic; `Curve.ofEnds_cases` says
  that it does.
* `Arc.ChecksEnds` — what the checks guarantee of the ends of an arc up to their tolerances, with
  `Segment.Built.ends`.
* `Arc.Regular` — an arc whose ends lie on its circle at its two angles, which is what a proper
  arc is once both of its ends are at its radius (`Arc.Proper.regular`).
-/

namespace Contour

/-- The segments that the constructors return under the default tolerances. -/
inductive Segment.Built : Segment ℝ → Prop
  | ofLine {start stop : Point ℝ} {l : Line ℝ} (h : Line.ofEnds start stop coincidentTol = .ok l) :
      Built (.line l)
  | ofCurve {center start stop : Point ℝ} {clockwise : Bool} {c : Curve ℝ}
      (h : Curve.ofEnds center start stop clockwise coincidentTol radiusTol = .ok c) :
      Built (.curve c)
  | ofCircle {center : Point ℝ} {radius : ℝ} {c : Circle ℝ}
      (h : Circle.ofRadius center radius coincidentTol = .ok c) : Built (.curve (.circle c))

/-- The segments that the constructors return under any tolerances, which are not negative. -/
inductive Segment.Made : Segment ℝ → Prop
  | ofLine {start stop : Point ℝ} {tol : ℝ} {l : Line ℝ} (htol : 0 ≤ tol)
      (h : Line.ofEnds start stop tol = .ok l) : Made (.line l)
  | ofCurve {center start stop : Point ℝ} {clockwise : Bool} {tol radiusTol : ℝ} {c : Curve ℝ}
      (htol : 0 ≤ tol) (h : Curve.ofEnds center start stop clockwise tol radiusTol = .ok c) :
      Made (.curve c)
  | ofCircle {center : Point ℝ} {radius tol : ℝ} {c : Circle ℝ} (htol : 0 ≤ tol)
      (h : Circle.ofRadius center radius tol = .ok c) : Made (.curve (.circle c))

structure Line.Proper (l : Line ℝ) (tol : ℝ) : Prop where
  start_planar : l.start.z = 0
  stop_planar : l.stop.z = 0
  lt_length : tol < l.start.dist l.stop

structure Circle.Proper (c : Circle ℝ) : Prop where
  planar : c.center.z = 0
  radius_pos : 0 < c.radius

/-- An arc in the plane whose angles are those of its ends, in counter-clockwise order. -/
structure Arc.Proper (a : Arc ℝ) : Prop where
  planar : a.center.z = 0
  start_planar : a.start.z = 0
  stop_planar : a.stop.z = 0
  radius_pos : 0 < a.radius
  startAngle_eq : a.startAngle = a.start.angleXY a.center
  endAngle_eq : a.endAngle = Angle.unwrapAfter (a.stop.angleXY a.center) a.startAngle

/-- The ends of an arc are apart from its center and from each other; drawing starts at its radius
and stops near it. -/
structure Arc.ChecksEnds (a : Arc ℝ) (tol radiusTol : ℝ) : Prop where
  center_apart : (a.center.agrees a.start tol || a.center.agrees a.stop tol) = false
  apart : a.start.agrees a.stop tol = false
  traceStart_dist : a.traceStart.dist a.center = a.radius
  traceStop_near : |a.traceStop.dist a.center - a.radius| ≤ radiusTol

/-- What construction writes into an arc, and the checks that it made before, in any arithmetic. -/
structure Arc.Stored {α : Type} [Add α] [Sub α] [Mul α] [Div α] [LT α] [LE α] [DecidableLT α]
    [DecidableLE α] [BEq α] [OfNat α 0] [OfNat α 2] [Elementary α] (a : Arc α) (tol radiusTol : α) :
    Prop where
  center_planar : a.center.isPlanar = true
  start_planar : a.start.isPlanar = true
  stop_planar : a.stop.isPlanar = true
  center_apart : (a.center.agrees a.start tol || a.center.agrees a.stop tol) = false
  apart : a.start.agrees a.stop tol = false
  radius_eq : a.radius = a.traceStart.dist a.center
  radius_near : ¬ radiusTol < Elementary.abs (a.traceStop.dist a.center - a.radius)
  startAngle_eq : a.startAngle = a.start.angleXY a.center
  endAngle_eq : a.endAngle = Angle.unwrapAfter (a.stop.angleXY a.center) a.startAngle

/-- An arc of at most a turn whose ends lie on its circle at its two angles. -/
structure Arc.Regular (a : Arc ℝ) : Prop where
  radius_pos : 0 < a.radius
  neg_pi_le : -Real.pi ≤ a.startAngle
  le_pi : a.startAngle ≤ Real.pi
  start_le_end : a.startAngle ≤ a.endAngle
  end_lt_turn : a.endAngle < a.startAngle + 2 * Real.pi
  start_eq : a.start = a.center.around a.radius a.startAngle
  stop_eq : a.stop = a.center.around a.radius a.endAngle

/-! ## Points -/

/-- Points that are no further apart than a tolerance agree in every coordinate. -/
lemma Point.agrees_of_dist_le {p q : Point ℝ} {tol : ℝ} (h : p.dist q ≤ tol) :
    p.agrees q tol = true := by
  have hsq := Point.dist_sq p q
  have htol : 0 ≤ tol := (Point.dist_nonneg p q).trans h
  have hle : p.dist q ^ 2 ≤ tol ^ 2 := pow_le_pow_left₀ (Point.dist_nonneg p q) h 2
  have hx : |p.x - q.x| ≤ tol := abs_le_of_sq_le_sq (by nlinarith) htol
  have hy : |p.y - q.y| ≤ tol := abs_le_of_sq_le_sq (by nlinarith) htol
  have hz : |p.z - q.z| ≤ tol := abs_le_of_sq_le_sq (by nlinarith) htol
  simp [Point.agrees, hx, hy, hz]

lemma Point.lt_dist_of_not_agrees {p q : Point ℝ} {tol : ℝ} (h : ¬ p.agrees q tol = true) :
    tol < p.dist q := by
  by_contra hle
  exact h (Point.agrees_of_dist_le (not_lt.mp hle))

/-- Points that agree in every coordinate are no further apart than two tolerances. -/
lemma Point.dist_le_of_agrees {p q : Point ℝ} {tol : ℝ} (h : p.agrees q tol = true) :
    p.dist q ≤ 2 * tol := by
  simp only [Point.agrees, elementary_abs, Bool.and_eq_true, decide_eq_true_eq] at h
  obtain ⟨⟨hx, hy⟩, hz⟩ := h
  have htol : 0 ≤ tol := (abs_nonneg _).trans hx
  have hsq : ∀ {d : ℝ}, |d| ≤ tol → d ^ 2 ≤ tol ^ 2 :=
    fun h => sq_le_sq' (abs_le.mp h).1 (abs_le.mp h).2
  refine le_of_sq_le_sq ?_ (mul_nonneg zero_le_two htol)
  rw [Point.dist_sq]
  linarith [hsq hx, hsq hy, hsq hz, sq_nonneg tol]

lemma Point.agrees_eq_false {p q : Point ℝ} {tol : ℝ} (h : 2 * tol < p.dist q) :
    p.agrees q tol = false :=
  Bool.eq_false_iff.mpr fun hagrees => absurd (Point.dist_le_of_agrees hagrees) (not_le.mpr h)

lemma Point.dist_origin {x y radius : ℝ} (hradius : 0 ≤ radius) (h : x ^ 2 + y ^ 2 = radius ^ 2) :
    (⟨x, y, 0⟩ : Point ℝ).dist ⟨0, 0, 0⟩ = radius := by
  rw [Point.dist_eq_iff hradius, ← h]
  ring

/-- A point of the plane of a center is at its own distance and direction from the center. -/
lemma Point.around_angleXY {p center : Point ℝ} (hz : p.z = center.z) :
    center.around (p.dist center) (p.angleXY center) = p := by
  set w : ℂ := ⟨p.x - center.x, p.y - center.y⟩ with hw
  have hnorm : p.dist center = ‖w‖ := by
    rw [Point.dist_eq_sqrt, Complex.norm_eq_sqrt_sq_add_sq, hz]
    simp [hw]
  have hcos : ‖w‖ * Real.cos (Complex.arg w) = p.x - center.x := Complex.norm_mul_cos_arg w
  have hsin : ‖w‖ * Real.sin (Complex.arg w) = p.y - center.y := Complex.norm_mul_sin_arg w
  have hangle : p.angleXY center = Complex.arg w := rfl
  rw [Point.around, hnorm, hangle, hcos, hsin, ← hz]
  simp

/-- Unwrapping adds whole turns, which do not move a point around a center. -/
lemma Point.around_unwrapAfter (center : Point ℝ) (radius angle start : ℝ) :
    center.around radius (Angle.unwrapAfter angle start) = center.around radius angle := by
  obtain ⟨k, -, hk⟩ := Angle.unwrapAfter_isLeast angle start
  have hturns := Point.around_add_turns center radius angle k
  rwa [Int.cast_natCast, ← hk] at hturns

/-! ## Lines -/

lemma Line.ofEnds_eq_ok {start stop : Point ℝ} {tol : ℝ} {l : Line ℝ}
    (h : Line.ofEnds start stop tol = .ok l) : l.Proper tol := by
  unfold Line.ofEnds at h
  split_ifs at h with hplanar hagrees
  · exact absurd h (by simp [refuse])
  · exact absurd h (by simp [refuse])
  · cases h
    simp only [Bool.not_eq_true', Bool.not_eq_false, Bool.and_eq_true, isPlanar_iff] at hplanar
    exact ⟨hplanar.1, hplanar.2, Point.lt_dist_of_not_agrees hagrees⟩

/-- Two points of the plane that differ by more than a tolerance in a coordinate make a line. -/
lemma Line.ofEnds_of_lt {start stop : Point ℝ} {tol : ℝ} (hstart : start.z = 0) (hstop : stop.z = 0)
    (h : tol < |start.x - stop.x| ∨ tol < |start.y - stop.y|) :
    Line.ofEnds start stop tol = .ok ⟨start, stop⟩ := by
  have hagrees : start.agrees stop tol = false := by
    rcases h with h | h <;> simp [Point.agrees, h]
  simp [Line.ofEnds, Point.isPlanar, hstart, hstop, hagrees]

/-! ## Circles and arcs -/

lemma Circle.ofRadius_eq_ok {center : Point ℝ} {radius tol : ℝ} {c : Circle ℝ} (htol : 0 ≤ tol)
    (h : Circle.ofRadius center radius tol = .ok c) : c.Proper := by
  unfold Circle.ofRadius at h
  split_ifs at h with hplanar hradius
  · exact absurd h (by simp [refuse])
  · exact absurd h (by simp [refuse])
  · cases h
    simp only [Bool.not_eq_true', Bool.not_eq_false, isPlanar_iff] at hplanar
    exact ⟨hplanar, htol.trans_lt (not_le.mp hradius)⟩

/-- A center in the plane and a radius above a tolerance make a circle. -/
lemma Circle.ofRadius_of_lt {center : Point ℝ} {radius tol : ℝ} (hcenter : center.z = 0)
    (h : tol < radius) : Circle.ofRadius center radius tol = .ok ⟨center, radius⟩ := by
  simp [Circle.ofRadius, Point.isPlanar, hcenter, h]

/-- The ends of an arc in counter-clockwise order are those of its trace, in one order or the
other. -/
lemma Arc.ends_cases {α : Type} (a : Arc α) : (a.start = a.traceStart ∧ a.stop = a.traceStop) ∨
    (a.start = a.traceStop ∧ a.stop = a.traceStart) := by
  cases hclockwise : a.clockwise with
  | false => exact .inl (by simp [Arc.start, Arc.stop, hclockwise])
  | true => exact .inr (by simp [Arc.start, Arc.stop, hclockwise])

section Stored

variable {α : Type} [Add α] [Sub α] [Mul α] [Div α] [LT α] [LE α] [DecidableLT α] [DecidableLE α]
  [BEq α] [OfNat α 0] [OfNat α 2] [Elementary α] [LawfulDifference α] {center start stop : Point α}
  {clockwise : Bool} {tol radiusTol : α}

/-- **What the checks of a curve leave**, in any arithmetic: a full circle at the radius of the first
point, or an arc that stores the two points in the order in which they were given. -/
lemma Curve.ofEnds_cases {c : Curve α}
    (h : Curve.ofEnds center start stop clockwise tol radiusTol = .ok c) :
    (c = .circle ⟨center, start.dist center⟩ ∧ center.isPlanar = true ∧
        center.agrees start tol = false) ∨
      ∃ a, c = .arc a ∧ a.Stored tol radiusTol := by
  unfold Curve.ofEnds at h
  split_ifs at h with hplanar hcenter hsame
  · cases h
  · cases h
  -- circles and arcs have passed the same two checks by here
  all_goals
    simp only [Bool.not_eq_true', Bool.not_eq_false, Bool.and_eq_true] at hplanar
    obtain ⟨⟨hc, hs⟩, he⟩ := hplanar
    rw [Bool.not_eq_true] at hcenter
  · cases h
    exact .inl ⟨rfl, hc, (Bool.or_eq_false_iff.mp hcenter).1⟩
  · rw [Bool.not_eq_true] at hsame
    dsimp only at h
    split_ifs at h with hradius
    · cases h
    · cases h
      refine .inr ⟨_, rfl, ?_⟩
      cases clockwise with
      | false => exact ⟨hc, hs, he, hcenter, hsame, rfl, hradius, rfl, rfl⟩
      | true =>
          exact ⟨hc, he, hs, (Bool.or_comm _ _).trans hcenter, (Point.agrees_comm _ _ _).trans hsame,
            rfl, hradius, rfl, rfl⟩

omit [LawfulDifference α] in
/-- A curve is measured at its first point, which does not agree with the center. -/
lemma Curve.radius_of_ofEnds {c : Curve α}
    (h : Curve.ofEnds center start stop clockwise tol radiusTol = .ok c) :
    c.radius = start.dist center ∧ center.agrees start tol = false := by
  unfold Curve.ofEnds at h
  split_ifs at h with hplanar hcenter hsame
  · cases h
  · cases h
  all_goals
    rw [Bool.not_eq_true] at hcenter
    have happart := (Bool.or_eq_false_iff.mp hcenter).1
  · cases h
    exact ⟨rfl, happart⟩
  · dsimp only at h
    split_ifs at h with hradius
    · cases h
    · cases h
      exact ⟨rfl, happart⟩

lemma Curve.stored_of_ofEnds {a : Arc α}
    (h : Curve.ofEnds center start stop clockwise tol radiusTol = .ok (.arc a)) :
    a.Stored tol radiusTol := by
  obtain ⟨heq, -⟩ | ⟨b, heq, hstored⟩ := ofEnds_cases h
  · cases heq
  · cases heq
    exact hstored

end Stored

namespace Arc.Stored

variable {a : Arc ℝ} {tol radiusTol : ℝ}

lemma ends_off_center (h : a.Stored tol radiusTol) :
    tol < a.start.dist a.center ∧ tol < a.stop.dist a.center := by
  obtain ⟨hstart, hstop⟩ := Bool.or_eq_false_iff.mp h.center_apart
  rw [Point.dist_comm, Point.dist_comm a.stop]
  exact ⟨Point.lt_dist_of_not_agrees (Bool.eq_false_iff.mp hstart),
    Point.lt_dist_of_not_agrees (Bool.eq_false_iff.mp hstop)⟩

lemma lt_radius (h : a.Stored tol radiusTol) : tol < a.radius := by
  obtain ⟨hstart, hstop⟩ := h.ends_off_center
  rw [h.radius_eq]
  rcases a.ends_cases with ⟨heq, -⟩ | ⟨-, heq⟩
  · rwa [← heq]
  · rwa [← heq]

lemma proper (h : a.Stored tol radiusTol) (htol : 0 ≤ tol) : a.Proper where
  planar := (isPlanar_iff _).mp h.center_planar
  start_planar := (isPlanar_iff _).mp h.start_planar
  stop_planar := (isPlanar_iff _).mp h.stop_planar
  radius_pos := htol.trans_lt h.lt_radius
  startAngle_eq := h.startAngle_eq
  endAngle_eq := h.endAngle_eq

lemma checksEnds (h : a.Stored tol radiusTol) : a.ChecksEnds tol radiusTol :=
  ⟨h.center_apart, h.apart, h.radius_eq.symm, not_lt.mp h.radius_near⟩

end Arc.Stored

namespace Curve

variable {center start stop : Point ℝ} {clockwise : Bool} {tol radiusTol : ℝ} {c : Curve ℝ}

lemma lt_radius_of_ofEnds (h : Curve.ofEnds center start stop clockwise tol radiusTol = .ok c) :
    tol < c.radius := by
  obtain ⟨hradius, hcenter⟩ := radius_of_ofEnds h
  rw [hradius, Point.dist_comm]
  exact Point.lt_dist_of_not_agrees (Bool.eq_false_iff.mp hcenter)

/-- What the checks of an arc leave: a full circle about the center, or an arc whose angles are
those of its ends. -/
lemma ofEnds_eq_ok (htol : 0 ≤ tol)
    (h : Curve.ofEnds center start stop clockwise tol radiusTol = .ok c) :
    (∃ k, c = .circle k ∧ k.Proper) ∨ ∃ a, c = .arc a ∧ a.Proper := by
  have hradius := htol.trans_lt (lt_radius_of_ofEnds h)
  obtain ⟨rfl, hplanar, -⟩ | ⟨a, rfl, hstored⟩ := ofEnds_cases h
  · exact .inl ⟨_, rfl, (isPlanar_iff _).mp hplanar, hradius⟩
  · exact .inr ⟨a, rfl, hstored.proper htol⟩

end Curve

/-- Points of the plane that are apart, the last two at nearly one distance from the first, make an
arc. -/
lemma Curve.ofEnds_of_near {center start stop : Point ℝ} {tol radiusTol : ℝ}
    (hplanar : center.z = 0 ∧ start.z = 0 ∧ stop.z = 0)
    (hcenter : (center.agrees start tol || center.agrees stop tol) = false)
    (hends : start.agrees stop tol = false)
    (hradius : |stop.dist center - start.dist center| ≤ radiusTol) (clockwise : Bool) :
    Curve.ofEnds center start stop clockwise tol radiusTol
      = .ok (.arc ⟨center, start.dist center, start, stop,
          (Arc.angles (start.angleXY center) (stop.angleXY center) clockwise).1,
          (Arc.angles (start.angleXY center) (stop.angleXY center) clockwise).2, clockwise⟩) := by
  obtain ⟨hc, hs, he⟩ := hplanar
  simp [Curve.ofEnds, Point.isPlanar, hc, hs, he, hcenter, hends, not_lt.mpr hradius]

/-- Points at one distance from the center are at nearly one distance. -/
lemma Curve.ofEnds_of_apart {center start stop : Point ℝ} {tol radiusTol : ℝ} (htol : 0 ≤ radiusTol)
    (hplanar : center.z = 0 ∧ start.z = 0 ∧ stop.z = 0)
    (hcenter : (center.agrees start tol || center.agrees stop tol) = false)
    (hends : start.agrees stop tol = false) (hradius : stop.dist center = start.dist center)
    (clockwise : Bool) :
    Curve.ofEnds center start stop clockwise tol radiusTol
      = .ok (.arc ⟨center, start.dist center, start, stop,
          (Arc.angles (start.angleXY center) (stop.angleXY center) clockwise).1,
          (Arc.angles (start.angleXY center) (stop.angleXY center) clockwise).2, clockwise⟩) := by
  refine ofEnds_of_near hplanar hcenter hends ?_ clockwise
  rwa [hradius, sub_self, abs_zero]

namespace Arc.Proper

variable {a : Arc ℝ}

lemma neg_pi_lt (h : a.Proper) : -Real.pi < a.startAngle :=
  h.startAngle_eq ▸ Complex.neg_pi_lt_arg _

lemma le_pi (h : a.Proper) : a.startAngle ≤ Real.pi := h.startAngle_eq ▸ Complex.arg_le_pi _

lemma start_le_end (h : a.Proper) : a.startAngle ≤ a.endAngle :=
  h.endAngle_eq ▸ Angle.le_unwrapAfter _ _

lemma end_lt_turn (h : a.Proper) : a.endAngle < a.startAngle + 2 * Real.pi := by
  have hstop : a.stop.angleXY a.center ≤ Real.pi := Complex.arg_le_pi _
  rw [h.endAngle_eq]
  exact Angle.unwrapAfter_lt (by linarith [h.neg_pi_lt])

/-- A proper arc with both ends at its radius is regular. -/
lemma regular (h : a.Proper) (hstart : a.start.dist a.center = a.radius)
    (hstop : a.stop.dist a.center = a.radius) : a.Regular := by
  have hstartPoint := Point.around_angleXY (h.start_planar.trans h.planar.symm)
  have hstopPoint := Point.around_angleXY (h.stop_planar.trans h.planar.symm)
  refine ⟨h.radius_pos, h.neg_pi_lt.le, h.le_pi, h.start_le_end, h.end_lt_turn, ?_, ?_⟩
  · rw [h.startAngle_eq, ← hstart, hstartPoint]
  · rw [h.endAngle_eq, Point.around_unwrapAfter, ← hstop, hstopPoint]

end Arc.Proper

/-! ## Segments that were made -/

namespace Segment.Made

lemma line {l : Line ℝ} (h : Made (.line l)) : l.Proper 0 := by
  cases h with
  | ofLine htol h =>
      obtain ⟨hstart, hstop, hlength⟩ := Line.ofEnds_eq_ok h
      exact ⟨hstart, hstop, htol.trans_lt hlength⟩

lemma arc {a : Arc ℝ} (h : Made (.curve (.arc a))) : a.Proper := by
  cases h with
  | ofCurve htol h =>
      obtain ⟨k, hk, -⟩ | ⟨a', ha', hproper⟩ := Curve.ofEnds_eq_ok htol h
      · cases hk
      · cases ha'; exact hproper

lemma support {c : Curve ℝ} (h : Made (.curve c)) : c.support.Proper := by
  cases h with
  | ofCurve htol h =>
      obtain ⟨k, rfl, hproper⟩ | ⟨a, rfl, hproper⟩ := Curve.ofEnds_eq_ok htol h
      · exact hproper
      · exact ⟨hproper.planar, hproper.radius_pos⟩
  | ofCircle htol h => exact Circle.ofRadius_eq_ok htol h

end Segment.Made

namespace Segment.Built

/-- The default tolerances are some tolerances. -/
lemma made {s : Segment ℝ} (h : Built s) : s.Made := by
  cases h with
  | ofLine h => exact .ofLine coincidentTol_pos.le h
  | ofCurve h => exact .ofCurve coincidentTol_pos.le h
  | ofCircle h => exact .ofCircle coincidentTol_pos.le h

lemma line {l : Line ℝ} (h : Built (.line l)) : l.Proper coincidentTol := by
  cases h with
  | ofLine h => exact Line.ofEnds_eq_ok h

lemma arc {a : Arc ℝ} (h : Built (.curve (.arc a))) : a.Proper := h.made.arc

lemma support {c : Curve ℝ} (h : Built (.curve c)) : c.support.Proper := h.made.support

/-- A curve is larger than the tolerance within which its center and its ends would coincide. -/
lemma lt_radius {c : Curve ℝ} (h : Built (.curve c)) : coincidentTol < c.radius := by
  cases h with
  | ofCurve h => exact Curve.lt_radius_of_ofEnds h
  | ofCircle h =>
      unfold Circle.ofRadius at h
      split_ifs at h with hplanar hradius
      · exact absurd h (by simp [refuse])
      · exact absurd h (by simp [refuse])
      · cases h
        exact not_le.mp hradius

lemma stored {a : Arc ℝ} (h : Built (.curve (.arc a))) : a.Stored coincidentTol radiusTol := by
  cases h with
  | ofCurve h => exact Curve.stored_of_ofEnds h

lemma ends {a : Arc ℝ} (h : Built (.curve (.arc a))) : a.ChecksEnds coincidentTol radiusTol :=
  h.stored.checksEnds

end Segment.Built

/-! ## Arcs about the origin -/

lemma Point.angleXY_right {x : ℝ} (hx : 0 < x) : (⟨x, 0, 0⟩ : Point ℝ).angleXY ⟨0, 0, 0⟩ = 0 := by
  show Complex.arg ⟨x - 0, 0 - 0⟩ = 0
  rw [sub_zero, sub_zero]
  exact Complex.arg_ofReal_of_nonneg hx.le

lemma Point.angleXY_left {x : ℝ} (hx : x < 0) :
    (⟨x, 0, 0⟩ : Point ℝ).angleXY ⟨0, 0, 0⟩ = Real.pi := by
  show Complex.arg ⟨x - 0, 0 - 0⟩ = Real.pi
  rw [sub_zero, sub_zero]
  exact Complex.arg_ofReal_of_neg hx

noncomputable def Arc.aboutOrigin (start stop : Point ℝ) : Arc ℝ :=
  ⟨⟨0, 0, 0⟩, start.dist ⟨0, 0, 0⟩, start, stop, start.angleXY ⟨0, 0, 0⟩,
    Angle.unwrapAfter (stop.angleXY ⟨0, 0, 0⟩) (start.angleXY ⟨0, 0, 0⟩), false⟩

/-- Two points of a circle about the origin that are apart make an arc. -/
lemma Arc.built_aboutOrigin (radius : ℝ) {x y u v : ℝ} (hradius : 2 * coincidentTol < radius)
    (hstart : x ^ 2 + y ^ 2 = radius ^ 2) (hstop : u ^ 2 + v ^ 2 = radius ^ 2)
    (hends : coincidentTol < |x - u| ∨ coincidentTol < |y - v|) :
    Segment.Built (.curve (.arc (.aboutOrigin ⟨x, y, 0⟩ ⟨u, v, 0⟩))) := by
  have hpos : 0 ≤ radius := (mul_pos two_pos coincidentTol_pos).le.trans hradius.le
  have hdist := Point.dist_origin hpos hstart
  have hdist' := Point.dist_origin hpos hstop
  refine .ofCurve (Curve.ofEnds_of_apart radiusTol_pos.le ⟨rfl, rfl, rfl⟩ ?_ ?_
    (hdist'.trans hdist.symm) false)
  · rw [Point.agrees_eq_false, Point.agrees_eq_false, Bool.or_false]
    · rwa [Point.dist_comm, hdist']
    · rwa [Point.dist_comm, hdist]
  · rcases hends with h | h <;> simp [Point.agrees, h]

end Contour
