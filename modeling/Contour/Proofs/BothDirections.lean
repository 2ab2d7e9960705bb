import Contour.Proofs.StoredPatch

/-!
# Arcs drawn in both directions

An arc is given by a center, two end points and a direction of drawing.  This file compares two
constructions that differ in one of these.  Drawing clockwise is drawing counter-clockwise from the
other end: whatever the arithmetic, as long as a difference has the same size both ways, the checks
decide alike and the arcs are the same.  Drawing the other way between the same ends gives the rest of
the circle, over the real numbers and up to one exception: ends on one ray from the center are apart
because their radii differ, but their directions are the same, and both arcs are empty.

* `Curve.Exchanged` — results that differ only in the end where drawing starts.
* `Curve.ofEnds_exchanged` — a curve drawn clockwise, and counter-clockwise from its other end.
* `Point.OnRay`, `Point.angleXY_eq_iff` — points in one direction from a center.
* `Curve.sweeps_complete` — the arcs in the two directions between the same ends.
* `Curve.sweeps_vanish` — two ends on one ray.
-/

namespace Contour

/-! ## The same arc from its other end -/

section Exchange

variable {α : Type}

/-- The complaint about the same points in the other order. Only a complaint about radii names any. -/
def Complaint.exchanged : Complaint α → Complaint α
  | .radiusMismatch first second tol => .radiusMismatch second first tol
  | c => c

variable [Add α] [Sub α] [Mul α] [Div α] [LT α] [LE α] [DecidableLT α] [DecidableLE α] [BEq α]
  [OfNat α 0] [OfNat α 2] [Elementary α]

/-- Two arcs that are one arc drawn from either end. Each has the radius of the end where its drawing
starts. -/
structure Arc.Exchanged (a b : Arc α) (radiusTol : α) : Prop where
  center_eq : a.center = b.center
  start_eq : a.start = b.start
  stop_eq : a.stop = b.stop
  startAngle_eq : a.startAngle = b.startAngle
  endAngle_eq : a.endAngle = b.endAngle
  traceStart_eq : a.traceStart = b.traceStop
  traceStop_eq : a.traceStop = b.traceStart
  clockwise_eq : a.clockwise = !b.clockwise
  radius_left : a.radius = a.traceStart.dist a.center
  radius_right : b.radius = b.traceStart.dist b.center
  radius_near : ¬ radiusTol < Elementary.abs (a.radius - b.radius)

/-- Results of two constructions from either end: refusals with one code, or curves of one kind. -/
inductive Curve.Exchanged (radiusTol : α) :
    Except (Fault α) (Curve α) → Except (Fault α) (Curve α) → Prop
  | refused {c d : Complaint α} (hcode : c.code = d.code) (hradii : c = d.exchanged) :
      Exchanged radiusTol (refuse c) (refuse d)
  | circle {k l : Circle α} (hcenter : k.center = l.center) :
      Exchanged radiusTol (.ok (.circle k)) (.ok (.circle l))
  | arc {a b : Arc α} (h : a.Exchanged b radiusTol) :
      Exchanged radiusTol (.ok (.arc a)) (.ok (.arc b))

variable [LawfulDifference α]

/-- **Drawing clockwise is drawing counter-clockwise from the other end.** The two constructions refuse
the same points for the same reason, and return the same kind of curve otherwise; two arcs are one arc
drawn from either end. -/
theorem Curve.ofEnds_exchanged (center start stop : Point α) (tol radiusTol : α) :
    Curve.Exchanged radiusTol (Curve.ofEnds center start stop true tol radiusTol)
      (Curve.ofEnds center stop start false tol radiusTol) := by
  have hplanar : (center.isPlanar && stop.isPlanar && start.isPlanar)
      = (center.isPlanar && start.isPlanar && stop.isPlanar) := Bool.and_right_comm _ _ _
  have hcenter : (center.agrees stop tol || center.agrees start tol)
      = (center.agrees start tol || center.agrees stop tol) := Bool.or_comm _ _
  have hends : stop.agrees start tol = start.agrees stop tol := Point.agrees_comm _ _ _
  have hradius : Elementary.abs (start.dist center - stop.dist center)
      = Elementary.abs (stop.dist center - start.dist center) := LawfulDifference.abs_comm _ _
  unfold ofEnds
  dsimp only
  rw [hplanar, hcenter, hends, hradius]
  -- both constructions now make the same checks in the same order
  split_ifs with _ _ _ hmismatch
  · exact .refused rfl rfl
  · exact .refused rfl rfl
  · exact .circle rfl
  · exact .refused rfl rfl
  · exact .arc ⟨rfl, rfl, rfl, rfl, rfl, rfl, rfl, rfl, rfl, rfl, hradius ▸ hmismatch⟩

end Exchange

/-- The two radii of a quarter that is drawn clockwise and inwards are compared alike from its other
end, where it gets the smaller one. -/
theorem Curve.ofEnds_exchanged_lopsidedQuarter :
    ∃ b : Arc ℝ, Curve.ofEnds ⟨0, 0, 0⟩ ⟨4, 0, 0⟩ ⟨0, 4.0005, 0⟩ false coincidentTol radiusTol
        = .ok (.arc b) ∧
      Arc.lopsidedQuarter.Exchanged b radiusTol ∧ |Arc.lopsidedQuarter.radius - b.radius| ≤ radiusTol := by
  have h := ofEnds_exchanged (⟨0, 0, 0⟩ : Point ℝ) ⟨0, 4.0005, 0⟩ ⟨4, 0, 0⟩ coincidentTol radiusTol
  rw [Arc.ofEnds_lopsidedQuarter] at h
  generalize Curve.ofEnds (⟨0, 0, 0⟩ : Point ℝ) ⟨4, 0, 0⟩ ⟨0, 4.0005, 0⟩ false coincidentTol radiusTol
    = r at h ⊢
  cases h with
  | arc hexchanged => exact ⟨_, rfl, hexchanged, not_lt.mp hexchanged.radius_near⟩

/-! ## The other way between the same ends -/

/-- The checks of an arc do not depend on the direction in which it is drawn. -/
lemma Curve.arc_of_ofEnds {α : Type} [Add α] [Sub α] [Mul α] [Div α] [LT α] [LE α] [DecidableLT α]
    [DecidableLE α] [BEq α] [OfNat α 0] [OfNat α 2] [Elementary α] {center start stop : Point α}
    {clockwise : Bool} {tol radiusTol : α} {a : Arc α}
    (h : Curve.ofEnds center start stop clockwise tol radiusTol = .ok (.arc a)) (other : Bool) :
    Curve.ofEnds center start stop other tol radiusTol
      = .ok (.arc ⟨center, start.dist center, start, stop,
          (Arc.angles (start.angleXY center) (stop.angleXY center) other).1,
          (Arc.angles (start.angleXY center) (stop.angleXY center) other).2, other⟩) := by
  unfold ofEnds at h ⊢
  dsimp only at h ⊢
  split_ifs at h ⊢ <;> cases h
  rfl

namespace Point

/-- A point lies on the ray from a center through another point, and not at the center. -/
def OnRay (center p q : Point ℝ) : Prop := ∃ k > 0, q.sub center = (p.sub center).scale k

variable {center p q : Point ℝ}

/-- Points of the plane of a center have one direction iff they lie on one ray. -/
lemma angleXY_eq_iff (hp : p.z = center.z) (hq : q.z = center.z) (hpc : 0 < p.dist center)
    (hqc : 0 < q.dist center) : p.angleXY center = q.angleXY center ↔ center.OnRay p q := by
  constructor
  · intro hangle
    have hpAround := around_angleXY hp
    have hqAround := around_angleXY hq
    rw [hangle] at hpAround
    generalize q.angleXY center = angle at hpAround hqAround
    have hscaled : (center.around (q.dist center) angle).sub center
        = ((center.around (p.dist center) angle).sub center).scale
            (q.dist center / p.dist center) := by
      simp only [around, sub, scale, mk.injEq]
      refine ⟨?_, ?_, ?_⟩ <;> field_simp <;> ring
    rw [hpAround, hqAround] at hscaled
    exact ⟨_, div_pos hqc hpc, hscaled⟩
  · rintro ⟨k, hk, hsub⟩
    simp only [sub, scale, mk.injEq] at hsub
    have hscaled : (⟨q.x - center.x, q.y - center.y⟩ : ℂ)
        = k * (⟨p.x - center.x, p.y - center.y⟩ : ℂ) := by
      apply Complex.ext
      · simp [hsub.1, mul_comm]
      · simp [hsub.2.1, mul_comm]
    show Complex.arg _ = Complex.arg _
    rw [hscaled, Complex.arg_real_mul _ hk]

/-- Points of one ray at one distance from its center are one point. -/
lemma OnRay.eq_of_dist_eq (h : center.OnRay p q) (hpc : 0 < p.dist center)
    (hdist : p.dist center = q.dist center) : p = q := by
  obtain ⟨k, hk, hsub⟩ := h
  have hmag : q.dist center = p.dist center * |k| := by
    rw [dist, hsub, mag_scale]
    rfl
  rw [← hdist, abs_of_pos hk] at hmag
  have hone : k = 1 := by
    have : p.dist center * k = p.dist center * 1 := by rw [← hmag, mul_one]
    exact mul_left_cancel₀ hpc.ne' this
  rcases p with ⟨x, y, z⟩
  rcases q with ⟨u, v, w⟩
  simp only [sub, scale, hone, mul_one, mk.injEq, sub_left_inj] at hsub ⊢
  exact ⟨hsub.1.symm, hsub.2.1.symm, hsub.2.2.symm⟩

end Point

namespace Arc

variable {start stop : ℝ}

/-- The ranges between two directions, counter-clockwise from the lower and from the higher one. -/
lemma angles_of_lt (h : start < stop) (hturn : stop ≤ start + 2 * Real.pi) :
    Arc.angles start stop false = (start, stop) ∧
      Arc.angles start stop true = (stop, start + 2 * Real.pi) := by
  simp only [angles, Bool.false_eq_true, if_false, if_true]
  rw [Angle.unwrapAfter_of_le h.le, Angle.unwrapAfter_of_lt h hturn]
  exact ⟨rfl, rfl⟩

/-- One direction has no range to itself in either direction of drawing. -/
lemma angles_self (angle : ℝ) (clockwise : Bool) :
    Arc.angles angle angle clockwise = (angle, angle) := by
  rw [angles, Angle.unwrapAfter_of_le le_rfl, ite_self]

lemma angles_empty (h : start = stop) (clockwise : Bool) :
    (Arc.angles start stop clockwise).2 - (Arc.angles start stop clockwise).1 = 0 := by
  rw [h, angles_self, sub_self]

/-- **Two directions divide a turn.** The ranges between them in the two directions of drawing are not
empty and make up a whole turn. -/
lemma angles_complete (hne : start ≠ stop) (hstart : start ∈ Set.Ioc (-Real.pi) Real.pi)
    (hstop : stop ∈ Set.Ioc (-Real.pi) Real.pi) :
    0 < (Arc.angles start stop false).2 - (Arc.angles start stop false).1 ∧
      0 < (Arc.angles start stop true).2 - (Arc.angles start stop true).1 ∧
      ((Arc.angles start stop false).2 - (Arc.angles start stop false).1)
        + ((Arc.angles start stop true).2 - (Arc.angles start stop true).1) = 2 * Real.pi := by
  obtain ⟨hstart, hstart'⟩ := hstart
  obtain ⟨hstop, hstop'⟩ := hstop
  rcases lt_or_gt_of_ne hne with hlt | hlt
  · obtain ⟨hccw, hcw⟩ := angles_of_lt hlt (by linarith)
    rw [hccw, hcw]
    refine ⟨?_, ?_, ?_⟩ <;> dsimp only <;> linarith
  · -- the clockwise range from one end is the counter-clockwise one from the other
    obtain ⟨hcw, hccw⟩ := angles_of_lt hlt (by linarith)
    change Arc.angles start stop true = _ at hcw
    change Arc.angles start stop false = _ at hccw
    rw [hccw, hcw]
    refine ⟨?_, ?_, ?_⟩ <;> dsimp only <;> linarith

end Arc

namespace Curve

variable {center start stop : Point ℝ} {a : Arc ℝ}

/-- **The two directions complete each other.** If there is an arc counter-clockwise between two ends,
there is one clockwise.  Neither is empty and they make up the whole circle, unless the two ends lie on
one ray from the center; ends of this kind differ in their radii, and both arcs are empty. -/
theorem sweeps_complete
    (h : Curve.ofEnds center start stop false coincidentTol radiusTol = .ok (.arc a)) :
    ∃ b, Curve.ofEnds center start stop true coincidentTol radiusTol = .ok (.arc b) ∧
      (¬ center.OnRay start stop → 0 < a.sweep ∧ 0 < b.sweep ∧ a.sweep + b.sweep = 2 * Real.pi) ∧
      (center.OnRay start stop →
        a.sweep = 0 ∧ b.sweep = 0 ∧ start.dist center ≠ stop.dist center) := by
  have hstored := stored_of_ofEnds h
  obtain rfl := Curve.arc.inj (Except.ok.inj (h.symm.trans (arc_of_ofEnds h false)))
  have hproper := hstored.proper coincidentTol_pos.le
  have hstart : 0 < start.dist center := coincidentTol_pos.trans hstored.ends_off_center.1
  have hstop : 0 < stop.dist center := coincidentTol_pos.trans hstored.ends_off_center.2
  have hray : start.angleXY center = stop.angleXY center ↔ center.OnRay start stop :=
    Point.angleXY_eq_iff (hproper.start_planar.trans hproper.planar.symm)
      (hproper.stop_planar.trans hproper.planar.symm) hstart hstop
  refine ⟨_, arc_of_ofEnds h true, fun hoff => ?_, fun hon => ⟨?_, ?_, fun hdist => ?_⟩⟩
  · exact Arc.angles_complete (fun hangle => hoff (hray.mp hangle))
      ⟨Complex.neg_pi_lt_arg _, Complex.arg_le_pi _⟩ ⟨Complex.neg_pi_lt_arg _, Complex.arg_le_pi _⟩
  · exact Arc.angles_empty (hray.mpr hon) false
  · exact Arc.angles_empty (hray.mpr hon) true
  · have happart : 0 < start.dist stop :=
      coincidentTol_pos.trans (Point.lt_dist_of_not_agrees (Bool.eq_false_iff.mp hstored.apart))
    rw [hon.eq_of_dist_eq hstart hdist, Point.dist_self] at happart
    exact lt_irrefl _ happart

/-- Counter-clockwise from the top to the right is three quarters of a circle, clockwise the fourth. -/
theorem sweeps_complete_lopsidedQuarter :
    ∃ a b, Curve.ofEnds ⟨0, 0, 0⟩ ⟨0, 4.0005, 0⟩ ⟨4, 0, 0⟩ false coincidentTol radiusTol = .ok (.arc a) ∧
      Curve.ofEnds ⟨0, 0, 0⟩ ⟨0, 4.0005, 0⟩ ⟨4, 0, 0⟩ true coincidentTol radiusTol = .ok (.arc b) ∧
      ¬ (⟨0, 0, 0⟩ : Point ℝ).OnRay ⟨0, 4.0005, 0⟩ ⟨4, 0, 0⟩ ∧ 0 < a.sweep ∧ 0 < b.sweep ∧
      a.sweep + b.sweep = 2 * Real.pi := by
  have hoff : ¬ (⟨0, 0, 0⟩ : Point ℝ).OnRay ⟨0, 4.0005, 0⟩ ⟨4, 0, 0⟩ := by
    rintro ⟨k, -, hsub⟩
    simp [Point.sub, Point.scale] at hsub
  have hccw := arc_of_ofEnds Arc.ofEnds_lopsidedQuarter false
  obtain ⟨b, hcw, hcomplete, -⟩ := sweeps_complete hccw
  exact ⟨_, b, hccw, hcw, hoff, hcomplete hoff⟩

/-- **Two ends on one ray.** They are further apart than points that coincide and their radii agree, so
there is an arc in either direction, and neither has a sweep. -/
theorem sweeps_vanish :
    ∃ a b, Curve.ofEnds ⟨0, 0, 0⟩ ⟨5, 0, 0⟩ ⟨5.0005, 0, 0⟩ false coincidentTol radiusTol = .ok (.arc a) ∧
      Curve.ofEnds ⟨0, 0, 0⟩ ⟨5, 0, 0⟩ ⟨5.0005, 0, 0⟩ true coincidentTol radiusTol = .ok (.arc b) ∧
      ¬ 0 < a.sweep ∧ ¬ 0 < b.sweep ∧ a.sweep + b.sweep ≠ 2 * Real.pi := by
  have hstart : (⟨5, 0, 0⟩ : Point ℝ).dist ⟨0, 0, 0⟩ = 5 :=
    Point.dist_origin (by norm_num) (by norm_num)
  have hstop : (⟨5.0005, 0, 0⟩ : Point ℝ).dist ⟨0, 0, 0⟩ = 5.0005 :=
    Point.dist_origin (by norm_num) (by norm_num)
  have hccw : Curve.ofEnds (⟨0, 0, 0⟩ : Point ℝ) ⟨5, 0, 0⟩ ⟨5.0005, 0, 0⟩ false coincidentTol radiusTol
      = .ok (.arc ⟨⟨0, 0, 0⟩, 5, ⟨5, 0, 0⟩, ⟨5.0005, 0, 0⟩, 0, 0, false⟩) := by
    rw [ofEnds_of_near ⟨rfl, rfl, rfl⟩ ?_ ?_ ?_, hstart, Point.angleXY_right (by norm_num),
      Point.angleXY_right (by norm_num), Arc.angles_self]
    · rw [Point.agrees_eq_false, Point.agrees_eq_false, Bool.or_false]
      · rw [Point.dist_comm, hstop, coincidentTol_eq]
        norm_num
      · rw [Point.dist_comm, hstart, coincidentTol_eq]
        norm_num
    · simp only [Point.agrees, elementary_abs, coincidentTol_eq]
      norm_num
    · rw [hstart, hstop, radiusTol_eq]
      norm_num
  have hcw := arc_of_ofEnds hccw true
  rw [Point.angleXY_right (by norm_num), Point.angleXY_right (by norm_num), Arc.angles_self] at hcw
  refine ⟨_, _, hccw, hcw, ?_, ?_, ?_⟩ <;> simp [Arc.sweep, Real.pi_ne_zero]

end Curve

end Contour
