import Contour.Proofs.Heights
import Contour.Proofs.Lines
import Contour.Proofs.Patches

/-!
# Sweeping a segment

The patch over a segment is not copied from the segment.  A builder finds the radius and the angles
of a cylinder again from the two ends, and a wall gets its normal from its four corners.  This file
says that what comes out is the segment swept between the two heights.

* `Segment.swept` — the shape that the builders describe; `Operand.swept_of_extrude` says that a
  model of its own makes a patch of just this shape, `Operand.extrude_of_swept` that it does, and
  `Operand.grow_of_extrude` that it registers the patch.
* `Arc.swept_eq` — over an arc it has the stored angles and the radius of the first end, in any
  arithmetic in which a difference has the same size both ways.
* `Curve.swept_eq` — over a curve it is the cylinder with the radius and the angles of the curve.
* `Plane.ofCorners_eq_ok`, `Line.sweeps_plane` — over a line it is the wall, with a horizontal normal
  to the left of the line if the wall was drawn downwards.
* `Curve.Sweeps`, `Line.Sweeps` — a shape runs along a segment, point by point, and has its normals.
* `Segment.extrude_sweeps` — every patch over a built segment does.
-/

namespace Contour

/-! ## Registration -/

namespace Registering

variable {α β : Type} {r : Registry α} {p : Patch α}

lemma shape_of_register {description : Except (Fault α) (Shape α)}
    (h : (register description r).1 = .ok (some p)) : description = .ok p.shape := by
  cases description with
  | error fault =>
      change ((if fault.isBadValue then (pure none : Registering α _) else throw fault) r).1 = _ at h
      split_ifs at h <;> cases h
  | ok shape =>
      obtain ⟨q, hissued, h⟩ := exists_of_bind_ok h
      obtain ⟨-, -, h⟩ := exists_of_bind_ok h
      cases hissued
      cases h
      rfl

/-- A registry that registers a shape had its next id free. -/
lemma fresh_of_register {shape : Shape α} (h : (register (.ok shape) r).1 = .ok (some p)) :
    r.get? r.issued = none := by
  cases htaken : r.get? r.issued with
  | none => rfl
  | some q =>
      have hadd : (add ⟨r.issued, shape⟩ (r.issue shape).2).1
          = .error (.badValue (.alreadyRegistered r.issued)) := congrArg Prod.fst (add_of_taken htaken)
      obtain ⟨_, hissued, h⟩ := exists_of_bind_ok h
      cases hissued
      obtain ⟨_, hadded, -⟩ := exists_of_bind_ok h
      cases hadd.symm.trans hadded

lemma of_orNone {action : Registering α (Option β)} {b : β}
    (h : (orNone action r).1 = .ok (some b)) : (action r).1 = .ok (some b) := by
  unfold orNone at h
  rcases haction : action r with ⟨fault | result, r'⟩
  · rw [haction] at h
    dsimp only at h
    split_ifs at h
    cases h
  · rw [haction] at h
    exact h

end Registering

/-! ## The shape over a segment -/

namespace Boundary

variable {α : Type} [Sub α] [LE α] [DecidableLE α] [OfNat α 0] [Elementary α]
  {center start stop : Point α} {tol : α}

lemma ofPoints_fault {fault : Fault α}
    (h : Boundary.ofPoints center start stop tol = .error fault) : fault.isBadValue = true := by
  unfold ofPoints at h
  split_ifs at h
  cases h
  rfl

lemma ofPoints_of_apart (h : (center.agrees start tol || center.agrees stop tol) = false) :
    Boundary.ofPoints center start stop tol
      = .ok ⟨center.withZ 0, start.withZ 0, stop.withZ 0⟩ := by
  rw [ofPoints, h]
  rfl

end Boundary

section Shape

variable {α : Type} [Add α] [Sub α] [Mul α] [Div α] [LT α] [LE α] [DecidableLT α] [DecidableLE α]
  [BEq α] [OfNat α 0] [OfNat α 1] [OfNat α 2] [OfScientific α] [Elementary α]

/-- The shape over a segment between two heights. -/
def Segment.swept (s : Segment α) (zTop zBottom : α) : Except (Fault α) (Shape α) :=
  match s with
  | line l => (Plane.ofCorners (l.wall zTop zBottom) coincidentTol).map .plane
  | curve c => do
    let boundary ← Boundary.ofPoints c.center c.start c.stop coincidentTol
    (boundary.cylinder zTop zBottom).map .cylinder

variable {s : Segment α} {zTop zBottom tol : α} {p : Patch α} {r : Registry α}

lemma Segment.swept_of_boundary (c : Curve α) {b : Boundary α}
    (h : Boundary.ofPoints c.center c.start c.stop coincidentTol = .ok b) :
    (curve c).swept zTop zBottom = (b.cylinder zTop zBottom).map .cylinder := by
  rw [swept, h]
  rfl

/-- A model of its own registers the shape over a segment, or has no patch to answer with. -/
lemma Segment.extrude_keeping (s : Segment α) (zTop zBottom : α) (r : Registry α) :
    s.extrude .keeping zTop zBottom r
      = Registering.orNone (Registering.register (s.swept zTop zBottom)) r := by
  cases s with
  | line l => rfl
  | curve c =>
      unfold extrude swept
      dsimp only
      cases hboundary : Boundary.ofPoints c.center c.start c.stop (coincidentTol : α) with
      | error fault =>
          show _ = Registering.orNone (Registering.register (.error fault)) r
          rw [Registering.orNone_register_error (Boundary.ofPoints_fault hboundary)]
          rfl
      | ok boundary => rfl

lemma Segment.swept_of_extrude (h : (s.extrude .keeping zTop zBottom r).1 = .ok (some p)) :
    s.swept zTop zBottom = .ok p.shape := by
  rw [extrude_keeping] at h
  exact Registering.shape_of_register (Registering.of_orNone h)

/-- A registry whose next id is free gets the shape over a segment under that id. -/
lemma Segment.extrude_of_swept {shape : Shape α} (hfresh : r.get? r.issued = none)
    (h : s.swept zTop zBottom = .ok shape) :
    s.extrude .keeping zTop zBottom r = (.ok (some ⟨r.issued, shape⟩), r.grow shape) := by
  rw [extrude_keeping, h, Registering.orNone_register_ok hfresh]

lemma Segment.fresh_of_extrude (h : (s.extrude .keeping zTop zBottom r).1 = .ok (some p)) :
    r.get? r.issued = none := by
  have hswept := swept_of_extrude h
  rw [extrude_keeping, hswept] at h
  exact Registering.fresh_of_register (Registering.of_orNone h)

namespace Operand

variable {w : Workshop α}

/-- A model makes a patch over an operand only between heights that are apart, and then as the patch
over its segment. -/
lemma segment_of_extrude (h : (extrude (some .keeping) (.segment s) zTop zBottom tol w).1 = .ok p) :
    ¬ Elementary.abs (zTop - zBottom) < tol ∧
      (s.extrude .keeping zTop zBottom w.registry).1 = .ok (some p) := by
  by_cases hheights : Elementary.abs (zTop - zBottom) < tol
  · rw [extrude_of_lt hheights] at h
    cases h
  · rw [extrude_of_not_lt hheights] at h
    obtain ⟨t, ht, h⟩ := exists_of_bind_ok h
    cases ht
    obtain ⟨answer, hanswer, h⟩ := exists_of_bind_ok h
    cases answer with
    | none => cases h
    | some q =>
        cases h
        exact ⟨hheights, hanswer⟩

/-- **A patch over a segment has the shape that the builders describe**, whatever was registered
before it. -/
lemma swept_of_extrude (h : (extrude (some .keeping) (.segment s) zTop zBottom tol w).1 = .ok p) :
    s.swept zTop zBottom = .ok p.shape :=
  Segment.swept_of_extrude (segment_of_extrude h).2

/-- A shape that is described is registered under the next id, unless the heights are too close. -/
lemma extrude_grows {shape : Shape α} (hheights : ¬ Elementary.abs (zTop - zBottom) < tol)
    (hfresh : w.registry.get? w.registry.issued = none) (h : s.swept zTop zBottom = .ok shape) :
    extrude (some .keeping) (.segment s) zTop zBottom tol w
      = (.ok ⟨w.registry.issued, shape⟩, ⟨w.registry.grow shape, w.log⟩) := by
  rw [extrude_of_not_lt hheights]
  exact Heights.place_of_made (by rw [Heights.ask_ofNumbers, Segment.extrude_of_swept hfresh h])

lemma extrude_of_swept {shape : Shape α} (hheights : ¬ Elementary.abs (zTop - zBottom) < tol)
    (hfresh : w.registry.get? w.registry.issued = none) (h : s.swept zTop zBottom = .ok shape) :
    (extrude (some .keeping) (.segment s) zTop zBottom tol w).1 = .ok ⟨w.registry.issued, shape⟩ :=
  congrArg Prod.fst (extrude_grows hheights hfresh h)

/-- **A patch that is made is registered**: it has the next id and is the last of the registry. -/
lemma grow_of_extrude (h : (extrude (some .keeping) (.segment s) zTop zBottom tol w).1 = .ok p) :
    p.id = w.registry.issued ∧
      (extrude (some .keeping) (.segment s) zTop zBottom tol w).2.registry
        = w.registry.grow p.shape := by
  obtain ⟨hheights, hmade⟩ := segment_of_extrude h
  have hrun := extrude_grows (w := w) hheights (Segment.fresh_of_extrude hmade) (swept_of_extrude h)
  rw [hrun] at h ⊢
  exact ⟨(congrArg Patch.id (Except.ok.inj h)).symm, rfl⟩

end Operand

/-- **The shape over an arc** is found from its ends again.  Both places find the same angles, and the
distance of the first end is the same from either side. -/
lemma Arc.swept_eq [LawfulDifference α] {a : Arc α} (h : a.Stored coincidentTol radiusTol)
    (zTop zBottom : α) :
    (Segment.curve (.arc a)).swept zTop zBottom
      = (Cylinder.ofRanges (a.center.withZ 0) (a.start.dist a.center) a.startAngle a.endAngle
          (Scalar.smaller zTop zBottom) (Scalar.larger zTop zBottom)).map .cylinder := by
  let b : Boundary α := ⟨a.center.withZ 0, a.start.withZ 0, a.stop.withZ 0⟩
  have hboundary : Boundary.ofPoints a.center a.start a.stop coincidentTol = .ok b :=
    Boundary.ofPoints_of_apart h.center_apart
  have hradius : b.radius = a.start.dist a.center := by
    rw [Boundary.radius, Point.dist_withZ h.center_planar h.start_planar, Point.dist_comm]
  have hangles : b.angles = (a.startAngle, a.endAngle) := by
    have hapart : b.start.agrees b.stop coincidentTol = false := by
      rw [Point.agrees_withZ h.start_planar h.stop_planar, h.apart]
    rw [Boundary.angles, hapart, h.endAngle_eq, h.startAngle_eq]
    rfl
  rw [Segment.swept_of_boundary (.arc a) hboundary, Boundary.cylinder, hradius, hangles]

end Shape

/-! ## Curves -/

lemma Point.withZ_of_planar {p : Point ℝ} (h : p.z = 0) : p.withZ 0 = p := by
  rw [← h]
  rfl

lemma Cylinder.ofRanges_of_lt {center : Point ℝ} {radius startAngle endAngle bottom top : ℝ}
    (hradius : 0 < radius) (hangles : startAngle < endAngle) (hheights : extrusionTol ≤ top - bottom) :
    Cylinder.ofRanges center radius startAngle endAngle bottom top
      = .ok ⟨center, radius, startAngle, endAngle, bottom, top⟩ :=
  ofRanges_ok (not_le.mpr hradius) (not_le.mpr hangles) (not_lt.mpr hheights)

namespace Curve

variable {c : Curve ℝ} {zTop zBottom : ℝ}

/-- The two ends of a curve are at one distance from its center, as those of a circle always are. -/
def EndsLevel : Curve ℝ → Prop
  | arc a => a.start.dist a.center = a.stop.dist a.center
  | circle _ => True

/-- Drawing starts at the radius of an arc, whichever end that is, so level ends are both at it. -/
lemma dist_ends {a : Arc ℝ} (ha : (Segment.curve (.arc a)).Built) (hlevel : (arc a).EndsLevel) :
    a.start.dist a.center = a.radius ∧ a.stop.dist a.center = a.radius := by
  have hends : a.start.dist a.center = a.stop.dist a.center := hlevel
  have htrace := ha.ends.traceStart_dist
  rcases a.ends_cases with ⟨hstart, -⟩ | ⟨-, hstop⟩
  · rw [← hends, hstart]
    exact ⟨htrace, htrace⟩
  · rw [hends, hstop]
    exact ⟨htrace, htrace⟩

/-- The shape over a circle is found from its point at angle zero, which is both of its ends. -/
lemma swept_circle {k : Circle ℝ} (hk : (Segment.curve (.circle k)).Built) (zTop zBottom : ℝ) :
    (Segment.curve (.circle k)).swept zTop zBottom
      = (Cylinder.ofRanges k.center k.radius 0 Angle.turn (min zTop zBottom)
          (max zTop zBottom)).map .cylinder := by
  have hpos : 0 < k.radius := hk.support.radius_pos
  have hlt : coincidentTol < |k.radius| := hk.lt_radius.trans_le (le_abs_self _)
  have hplanar : k.center.z = 0 := hk.support.planar
  let b : Boundary ℝ := ⟨k.center, k.start, k.start⟩
  have hboundary : Boundary.ofPoints k.center k.start k.start coincidentTol = .ok b := by
    have hapart : k.center.agrees k.start coincidentTol = false := by
      simp [Point.agrees, Circle.start, hlt]
    rw [Boundary.ofPoints_of_apart (Bool.or_eq_false_iff.mpr ⟨hapart, hapart⟩),
      Point.withZ_of_planar hplanar, Point.withZ_of_planar (p := k.start) hplanar]
  have hradius : b.radius = k.radius := by
    show k.center.dist k.start = k.radius
    rw [Point.dist_eq_iff hpos.le]
    simp [Circle.start]
  have hangles : b.angles = (0, Angle.turn) := by
    have hangle : k.start.angleXY k.center = 0 := by
      show Complex.arg ⟨k.center.x + k.radius - k.center.x, k.center.y - k.center.y⟩ = 0
      rw [add_sub_cancel_left, sub_self]
      exact Complex.arg_ofReal_of_nonneg hpos.le
    have hagrees : k.start.agrees k.start coincidentTol = true := by
      simp [Point.agrees, coincidentTol_pos.le]
    show (if k.start.agrees k.start coincidentTol = true then
      (k.start.angleXY k.center, k.start.angleXY k.center + Angle.turn) else _) = _
    rw [hagrees, if_pos rfl, hangle, zero_add]
  rw [Segment.swept_of_boundary (circle k) hboundary, Boundary.cylinder, hradius, hangles,
    smaller_eq_min, larger_eq_max]

/-- **The shape over a curve** is the cylinder with its radius and its angles. -/
lemma swept_eq (hc : (Segment.curve c).Built) (hlevel : c.EndsLevel) (zTop zBottom : ℝ) :
    (Segment.curve c).swept zTop zBottom
      = (Cylinder.ofRanges c.center c.radius c.startAngle c.endAngle (min zTop zBottom)
          (max zTop zBottom)).map .cylinder := by
  cases c with
  | arc a =>
      rw [Arc.swept_eq hc.stored, Point.withZ_of_planar hc.arc.planar, (dist_ends hc hlevel).1,
        smaller_eq_min, larger_eq_max]
      rfl
  | circle k => exact swept_circle hc zTop zBottom

/-- **A shape that is a curve swept between two heights.**  At the angle of each point of the curve
it has that point, lifted, and the unit vector there from the axis. -/
structure Sweeps (c : Curve ℝ) (zTop zBottom : ℝ) (shape : Shape ℝ) : Prop where
  uRange_eq : shape.uRange = (c.startAngle, c.endAngle)
  vRange_eq : shape.vRange = (min zTop zBottom, max zTop zBottom)
  follows : ∀ t v, ∃ q, (Segment.curve c).sample t = .ok q ∧
    shape.evaluate (c.startAngle + t * (c.endAngle - c.startAngle)) v = .ok (q.withZ v)
  normal : ∀ t v q, (Segment.curve c).sample t = .ok q →
    ∃ n, shape.normalAt (c.startAngle + t * (c.endAngle - c.startAngle)) v = .ok n ∧ n.mag = 1 ∧
      (q.withZ v).sub (c.center.withZ v) = n.scale c.radius

lemma sweeps_cylinder (c : Curve ℝ) (zTop zBottom : ℝ) :
    c.Sweeps zTop zBottom (.cylinder ⟨c.center, c.radius, c.startAngle, c.endAngle,
      min zTop zBottom, max zTop zBottom⟩) where
  uRange_eq := rfl
  vRange_eq := rfl
  follows _ _ := ⟨_, rfl, rfl⟩
  normal t v q hq := by
    cases hq
    set θ := c.startAngle + t * (c.endAngle - c.startAngle)
    have hunit : (⟨Real.cos θ, Real.sin θ, 0⟩ : Point ℝ).dot ⟨Real.cos θ, Real.sin θ, 0⟩ = 1 := by
      have hone := Real.sin_sq_add_cos_sq θ
      simp only [Point.dot]
      linarith
    refine ⟨⟨Real.cos θ, Real.sin θ, 0⟩, rfl, ?_, ?_⟩
    · rw [Point.mag, hunit]
      exact Real.sqrt_one
    · simp only [Point.withZ, Point.sub, Point.scale, Point.mk.injEq, add_sub_cancel_left, sub_self,
        zero_mul, and_true]
      exact ⟨mul_comm _ _, mul_comm _ _⟩

end Curve

/-! ## Lines -/

/-- A displacement turned by a quarter to the left. -/
def Point.turnedLeft (p : Point ℝ) : Point ℝ := ⟨-p.y, p.x, 0⟩

lemma Point.mag_scale (p : Point ℝ) (c : ℝ) : (p.scale c).mag = p.mag * |c| := by
  have hdot : (p.scale c).dot (p.scale c) = p.dot p * c ^ 2 := by
    simp only [scale, dot]
    ring
  rw [mag, mag, hdot, elementary_sqrt, Real.sqrt_mul p.dot_self_nonneg, Real.sqrt_sq_eq_abs]
  rfl

/-- A plane that is accepted under any tolerance has a unit normal: a normal of no length would have
been divided by zero. -/
lemma Plane.ofCorners_eq_ok {q : Quad ℝ} {p : Plane ℝ} {tol : ℝ} (h : Plane.ofCorners q tol = .ok p) :
    0 < q.normalSum.mag ∧ p.corners = q ∧ p.normal = q.normalSum.scale (1 / q.normalSum.mag) := by
  obtain ⟨hcorners, -, ⟨k, hk, hnormal⟩, -, -⟩ := ofCorners_eq_ok_iff.mp h
  have hne : q.normalSum.mag ≠ 0 := by
    intro hzero
    rw [quotient, hzero] at hk
    simp at hk
  rw [quotient_of_ne _ hne] at hk
  obtain rfl := Except.ok.inj hk
  exact ⟨lt_of_le_of_ne (Real.sqrt_nonneg _) hne.symm, hcorners, hnormal⟩

namespace Line

variable {l : Line ℝ} {zTop zBottom : ℝ}

/-- The normal of a wall is as long as twice its area, and horizontal. -/
lemma normalSum_wall (l : Line ℝ) (zTop zBottom : ℝ) :
    (l.wall zTop zBottom).normalSum = l.along.turnedLeft.scale (2 * (zTop - zBottom)) := by
  simp only [wall, Quad.normalSum, List.foldl_cons, List.foldl_nil, Point.add, Point.cross,
    Point.withZ, Point.scale, Point.turnedLeft, along, Point.sub, Point.mk.injEq]
  refine ⟨?_, ?_, ?_⟩ <;> ring

/-- A horizontal unit vector at a right angle to a line, to its left or to its right. -/
structure IsNormal (l : Line ℝ) (left : Prop) (n : Point ℝ) : Prop where
  horizontal : n.z = 0
  unit : n.mag = 1
  perpendicular : n.dot l.along = 0
  side : (left → 0 < l.along.crossXY n) ∧ (¬ left → l.along.crossXY n < 0)

/-- **A shape that is a line swept between two heights.**  Its first parameter runs along the line,
its second from the top to the bottom. -/
structure Sweeps (l : Line ℝ) (zTop zBottom : ℝ) (shape : Shape ℝ) : Prop where
  follows : ∀ u v, ∃ q, (Segment.line l).sample u = .ok q ∧
    shape.evaluate u v = .ok (q.withZ (zTop + v * (zBottom - zTop)))
  normal : ∀ u v, ∃ n, shape.normalAt u v = .ok n ∧ l.IsNormal (zBottom < zTop) n

lemma sweeps_plane {tol : ℝ} (htol : 0 ≤ tol) (hl : l.Proper tol) {p : Plane ℝ}
    (h : Plane.ofCorners (l.wall zTop zBottom) coincidentTol = .ok p) :
    l.Sweeps zTop zBottom (.plane p) := by
  obtain ⟨hsize, hcorners, hnormal⟩ := Plane.ofCorners_eq_ok h
  set size := (l.wall zTop zBottom).normalSum.mag with hsize_eq
  rw [normalSum_wall] at hnormal hsize_eq
  have hmag := hl.mag_pos htol
  have hplanar : l.along.z = 0 := by simp [along, Point.sub, hl.start_planar, hl.stop_planar]
  constructor
  · intro u v
    refine ⟨_, rfl, congrArg Except.ok ?_⟩
    rw [Plane.evaluate, hcorners]
    simp only [wall, Point.lerp, Point.withZ, Point.mk.injEq]
    refine ⟨?_, ?_, ?_⟩ <;> ring
  · intro u v
    have hside : l.along.crossXY p.normal = 2 * (zTop - zBottom) / size * l.along.mag ^ 2 := by
      rw [hnormal, sq, Point.mag_mul_self]
      simp only [Point.scale, Point.turnedLeft, Point.crossXY, Point.dot, hplanar]
      ring
    refine ⟨p.normal, rfl, ?_, ?_, ?_, ?_, ?_⟩
    · simp [hnormal, Point.scale, Point.turnedLeft]
    · rw [hnormal, Point.mag_scale, ← hsize_eq, abs_of_pos (by positivity)]
      field_simp
    · simp only [hnormal]
      simp only [Point.scale, Point.turnedLeft, Point.dot, hplanar]
      ring
    · exact fun hdown => hside ▸ mul_pos (div_pos (by linarith) hsize) (pow_pos hmag 2)
    · intro hup
      -- a wall without height has no area
      have hne : zTop - zBottom ≠ 0 := by
        rintro heq
        rw [hsize_eq, Point.mag_scale, heq, mul_zero, abs_zero, mul_zero] at hsize
        exact hsize.false
      have hlt : 2 * (zTop - zBottom) < 0 := by
        have := lt_of_le_of_ne (sub_nonpos.mpr (not_lt.mp hup)) hne
        linarith
      exact hside ▸ mul_neg_of_neg_of_pos (div_neg_of_neg_of_pos hlt hsize) (pow_pos hmag 2)

end Line

/-! ## Patches -/

lemma extrusionTol_eq : (extrusionTol : ℝ) = 1e-6 := rfl

namespace Segment

variable {s : Segment ℝ} {zTop zBottom tol : ℝ} {w : Workshop ℝ} {p : Patch ℝ}

def EndsLevel : Segment ℝ → Prop
  | line _ => True
  | curve c => c.EndsLevel

/-- A shape that is a segment swept between two heights. -/
def Sweeps (s : Segment ℝ) (zTop zBottom : ℝ) (shape : Shape ℝ) : Prop :=
  match s with
  | line l => l.Sweeps zTop zBottom shape
  | curve c => c.Sweeps zTop zBottom shape

/-- **The patch over a segment is the segment swept.**  This holds for every patch that a model of
its own makes, in whichever direction an arc was drawn and whichever height is the top. -/
theorem extrude_sweeps (hs : s.Built) (hlevel : s.EndsLevel)
    (h : (Operand.extrude (some .keeping) (.segment s) zTop zBottom tol w).1 = .ok p) :
    s.Sweeps zTop zBottom p.shape := by
  have hswept := Operand.swept_of_extrude h
  cases s with
  | line l =>
      change (Plane.ofCorners (l.wall zTop zBottom) coincidentTol).map Shape.plane = _ at hswept
      cases hplane : Plane.ofCorners (l.wall zTop zBottom) coincidentTol with
      | error fault =>
          rw [hplane] at hswept
          cases hswept
      | ok plane =>
          rw [hplane] at hswept
          rw [← Except.ok.inj hswept]
          exact Line.sweeps_plane coincidentTol_pos.le hs.line hplane
  | curve c =>
      rw [Curve.swept_eq hs hlevel] at hswept
      cases hcylinder : Cylinder.ofRanges c.center c.radius c.startAngle c.endAngle
          (min zTop zBottom) (max zTop zBottom) with
      | error fault =>
          rw [hcylinder] at hswept
          cases hswept
      | ok cylinder =>
          rw [hcylinder, Cylinder.ofRanges_eq_ok hcylinder] at hswept
          rw [← Except.ok.inj hswept]
          exact c.sweeps_cylinder zTop zBottom

/-- A quarter of a circle of radius two, drawn clockwise. -/
noncomputable def clockwiseQuarter : Arc ℝ :=
  ⟨⟨0, 0, 0⟩, 2, ⟨0, 2, 0⟩, ⟨2, 0, 0⟩, 0, Real.pi / 2, true⟩

/-- The quarter is swept from height one up to height four. -/
theorem extrude_sweeps_clockwiseQuarter :
    Built (.curve (.arc clockwiseQuarter)) ∧ EndsLevel (.curve (.arc clockwiseQuarter)) ∧
      (Operand.extrude (some .keeping) (.segment (.curve (.arc clockwiseQuarter))) 4 1 extrusionTol
        ⟨.empty, .empty⟩).1 = .ok ⟨0, .cylinder ⟨⟨0, 0, 0⟩, 2, 0, Real.pi / 2, 1, 4⟩⟩ ∧
      Sweeps (.curve (.arc clockwiseQuarter)) 4 1
        (.cylinder ⟨⟨0, 0, 0⟩, 2, 0, Real.pi / 2, 1, 4⟩) := by
  have hdist : (⟨0, 2, 0⟩ : Point ℝ).dist ⟨0, 0, 0⟩ = 2 := Point.dist_origin zero_le_two (by norm_num)
  have hdist' : (⟨2, 0, 0⟩ : Point ℝ).dist ⟨0, 0, 0⟩ = 2 := Point.dist_origin zero_le_two (by norm_num)
  have hfirst : (⟨2, 0, 0⟩ : Point ℝ).angleXY ⟨0, 0, 0⟩ = 0 := by
    show Complex.arg ⟨2 - 0, 0 - 0⟩ = 0
    rw [sub_zero, sub_zero]
    exact Complex.arg_ofReal_of_nonneg zero_le_two
  have hlast : (⟨0, 2, 0⟩ : Point ℝ).angleXY ⟨0, 0, 0⟩ = Real.pi / 2 :=
    Complex.arg_eq_pi_div_two_iff.mpr (by norm_num)
  have hbuilt : Built (.curve (.arc clockwiseQuarter)) := by
    refine @Built.ofCurve ⟨0, 0, 0⟩ ⟨0, 2, 0⟩ ⟨2, 0, 0⟩ true _ ?_
    rw [Curve.ofEnds_of_apart radiusTol_pos.le ⟨rfl, rfl, rfl⟩ ?_ ?_ (hdist'.trans hdist.symm), hdist,
      hfirst, hlast, Arc.angles, if_pos rfl, Angle.unwrapAfter_of_le (by positivity)]
    · rfl
    · rw [Point.agrees_eq_false, Point.agrees_eq_false, Bool.or_false]
      · rw [Point.dist_comm, hdist', coincidentTol_eq]
        norm_num
      · rw [Point.dist_comm, hdist, coincidentTol_eq]
        norm_num
    · simp only [Point.agrees, coincidentTol_eq]
      norm_num
  have hlevel : EndsLevel (.curve (.arc clockwiseQuarter)) := hdist'.trans hdist.symm
  have hextrude : (Operand.extrude (some .keeping) (.segment (.curve (.arc clockwiseQuarter))) 4 1
      extrusionTol ⟨.empty, .empty⟩).1
        = .ok ⟨0, .cylinder ⟨⟨0, 0, 0⟩, 2, 0, Real.pi / 2, 1, 4⟩⟩ := by
    refine Operand.extrude_of_swept ?_ rfl ?_
    · rw [extrusionTol_eq]
      norm_num
    · rw [Curve.swept_eq hbuilt hlevel, min_eq_right (by norm_num), max_eq_left (by norm_num)]
      show (Cylinder.ofRanges ⟨0, 0, 0⟩ 2 0 (Real.pi / 2) 1 4).map Shape.cylinder = _
      rw [Cylinder.ofRanges_of_lt two_pos (by positivity) (by rw [extrusionTol_eq]; norm_num)]
      rfl
  exact ⟨hbuilt, hlevel, hextrude, extrude_sweeps hbuilt hlevel hextrude⟩

end Segment

end Contour
