import Contour.Proofs.BothDirections
import Contour.Proofs.Corners
import Contour.Proofs.Precedence

/-!
# Which segments can be extruded

Between the heights and the patch stand four checks that know nothing of each other: of the heights,
of the boundary points that a builder is given, of the ranges of a cylinder, and of the corners of a
wall.  Over the real numbers a segment that was constructed passes all but one of them.  An arc can
fail for its ends on one ray from the center, which leave it no sweep, and a wall for its area.

* `Cylinder.exists_ofRanges_iff`, `Line.flat_wall_iff` — what the checks of shapes ask of a segment.
* `Segment.Extrudable`, `Segment.exists_swept_iff` — the condition, and that it is the right one.
* `Segment.Flipped`, `Segment.flipped_of_swept` — the shapes over a segment when top and bottom change
  places.
* `Segment.extrude_iff_extrudable` — the same for patches in models, with the refusal of the rest.
-/

namespace Contour

lemma exists_map_ok_iff {ε β γ : Type} {f : β → γ} {result : Except ε β} :
    (∃ y, result.map f = .ok y) ↔ ∃ x, result = .ok x := by
  cases result with
  | error e => exact ⟨fun ⟨y, hy⟩ => (by cases hy), fun ⟨x, hx⟩ => (by cases hx)⟩
  | ok x => exact ⟨fun _ => ⟨x, rfl⟩, fun _ => ⟨f x, rfl⟩⟩

/-- Which parts of cylinders are accepted. -/
lemma Cylinder.exists_ofRanges_iff {center : Point ℝ} {radius startAngle endAngle bottom top : ℝ} :
    (∃ c, Cylinder.ofRanges center radius startAngle endAngle bottom top = .ok c) ↔
      0 < radius ∧ startAngle < endAngle ∧ extrusionTol ≤ top - bottom := by
  constructor
  · rintro ⟨c, hc⟩
    obtain ⟨hradius, hangles, hheights⟩ := ofRanges_checked hc
    exact ⟨not_le.mp hradius, not_le.mp hangles, not_lt.mp hheights⟩
  · rintro ⟨hradius, hangles, hheights⟩
    exact ⟨_, ofRanges_of_lt hradius hangles hheights⟩

/-! ## Walls -/

namespace Line

variable {l : Line ℝ} {zTop zBottom tol : ℝ}

lemma mag_turnedLeft (hl : l.Proper tol) : l.along.turnedLeft.mag = l.along.mag := by
  have hplanar : l.along.z = 0 := by simp [along, Point.sub, hl.start_planar, hl.stop_planar]
  rw [Point.mag, Point.mag]
  simp only [Point.turnedLeft, Point.dot, hplanar]
  ring_nf

/-- The wall over a line is flat in any case, so that only its area counts. -/
lemma flat_wall_iff (hl : l.Proper tol) : (l.wall zTop zBottom).Flat coincidentTol ↔
    coincidentTol ≤ 2 * (Segment.line l).length * |zTop - zBottom| := by
  have hmag : (l.wall zTop zBottom).normalSum.mag
      = 2 * (Segment.line l).length * |zTop - zBottom| := by
    rw [normalSum_wall, Point.mag_scale, mag_turnedLeft hl, mag_along, abs_mul, abs_two]
    show l.start.dist l.stop * _ = 2 * l.start.dist l.stop * _
    ring
  have hlevel : ((l.wall zTop zBottom).second.sub (l.wall zTop zBottom).first).dot
      (l.wall zTop zBottom).normalSum = 0 := by
    rw [normalSum_wall]
    simp only [wall, Point.withZ, Point.sub, Point.dot, Point.scale, Point.turnedLeft, along]
    ring
  refine ⟨fun h => hmag ▸ h.spans, fun h => ⟨hmag ▸ h, ?_⟩⟩
  rw [hlevel, abs_zero]
  exact mul_nonneg coincidentTol_pos.le (Real.sqrt_nonneg _)

end Line

namespace Segment

variable {s : Segment ℝ} {zTop zBottom : ℝ} {shape shape' : Shape ℝ}

/-! ## Shapes -/

/-- The segments over which there is a patch of a given height. -/
def Extrudable (s : Segment ℝ) (height : ℝ) : Prop :=
  match s with
  | line l => coincidentTol ≤ 2 * (line l).length * height
  | curve (.arc a) => 0 < a.sweep
  | curve (.circle _) => True

/-- **Which segments have a shape over them.**  The radius found by a builder is positive for every
curve that was constructed, and the heights are apart as far as an extrusion asks for. -/
lemma exists_swept_iff (hs : s.Built) (hheights : extrusionTol ≤ |zTop - zBottom|) :
    (∃ shape, s.swept zTop zBottom = .ok shape) ↔ s.Extrudable |zTop - zBottom| := by
  have hrange : extrusionTol ≤ max zTop zBottom - min zTop zBottom := by
    rwa [max_sub_min_eq_abs']
  cases s with
  | line l =>
      show (∃ shape, (Plane.ofCorners (l.wall zTop zBottom) coincidentTol).map Shape.plane = .ok shape) ↔ _
      rw [exists_map_ok_iff, Plane.exists_ofCorners_iff coincidentTol_pos, Line.flat_wall_iff hs.line]
      rfl
  | curve c =>
      cases c with
      | arc a =>
          obtain ⟨hapart, -⟩ := hs.stored.ends_off_center
          have hradius := coincidentTol_pos.trans hapart
          rw [Arc.swept_eq hs.stored, smaller_eq_min, larger_eq_max, exists_map_ok_iff,
            Cylinder.exists_ofRanges_iff]
          show _ ↔ 0 < a.endAngle - a.startAngle
          rw [sub_pos]
          exact ⟨fun h => h.2.1, fun h => ⟨hradius, h, hrange⟩⟩
      | circle k =>
          rw [Curve.swept_circle hs, exists_map_ok_iff, Cylinder.exists_ofRanges_iff]
          exact ⟨fun _ => trivial, fun _ => ⟨hs.support.radius_pos, turn_pos, hrange⟩⟩

/-- The shapes over a segment between two heights, when these change places: a wall is seen from the
other side, and nothing else changes. -/
inductive Flipped : Segment ℝ → Shape ℝ → Shape ℝ → Prop
  | line {l : Line ℝ} {p p' : Plane ℝ} (area_eq : p'.area = p.area)
      (normal_eq : p'.normal = p.normal.scale (-1)) : Flipped (.line l) (.plane p) (.plane p')
  | curve {c : Curve ℝ} (shape : Shape ℝ) : Flipped (.curve c) shape shape

lemma swept_curve_comm (c : Curve ℝ) (zTop zBottom : ℝ) :
    (curve c).swept zBottom zTop = (curve c).swept zTop zBottom := by
  simp only [swept, Boundary.cylinder, smaller_eq_min, larger_eq_max, min_comm, max_comm]

lemma flipped_of_swept (h : s.swept zTop zBottom = .ok shape)
    (h' : s.swept zBottom zTop = .ok shape') : s.Flipped shape shape' := by
  cases s with
  | line l =>
      change (Plane.ofCorners (l.wall zTop zBottom) coincidentTol).map Shape.plane = _ at h
      -- With the heights exchanged the corners are those of the wall in the opposite order.
      change (Plane.ofCorners (l.wall zTop zBottom).reversed coincidentTol).map Shape.plane = _ at h'
      obtain ⟨p, hp⟩ := exists_map_ok_iff.mp ⟨shape, h⟩
      obtain ⟨p', hp'⟩ := exists_map_ok_iff.mp ⟨shape', h'⟩
      rw [hp] at h
      rw [hp'] at h'
      cases h
      cases h'
      obtain ⟨harea, hnormal⟩ := Plane.opposite_of_reversed hp hp'
      exact .line harea hnormal
  | curve c =>
      rw [swept_curve_comm, h] at h'
      cases h'
      exact .curve shape

/-! ## Patches -/

variable {w : Workshop ℝ}

/-- The checks of an extrusion, looked at together.  A refusal is that of the last one. -/
lemma extrude_verdict (hs : s.Built) (hw : Registry.Reaches 0 .empty w.registry)
    (hheights : extrusionTol ≤ |zTop - zBottom|) :
    ((∃ p, (Operand.extrude (some .keeping) (.segment s) zTop zBottom extrusionTol w).1 = .ok p) ↔
      s.Extrudable |zTop - zBottom|) ∧
    (¬ s.Extrudable |zTop - zBottom| → Refuses (Operand.extrude (some .keeping) (.segment s) zTop
      zBottom extrusionTol w).1 .surfaceConstructionFailed) := by
  have hapart : ¬ Elementary.abs (zTop - zBottom) < extrusionTol := not_lt.mpr hheights
  have hfresh : w.registry.get? w.registry.issued = none :=
    (Registry.consistent_empty.of_reaches hw).get?_of_issued_le le_rfl
  rw [Operand.extrude_eq_settle (.inr rfl) _ hfresh, ← exists_swept_iff hs hheights]
  cases hswept : s.swept zTop zBottom with
  | ok shape =>
      rw [Operand.verdict_of_swept hapart hswept]
      exact ⟨⟨fun _ => ⟨shape, rfl⟩, fun _ => ⟨_, rfl⟩⟩, fun h => absurd ⟨shape, rfl⟩ h⟩
  | error fault =>
      rw [Operand.verdict_of_fault hapart hswept]
      refine ⟨⟨fun ⟨p, hp⟩ => ?_, fun ⟨shape, hshape⟩ => ?_⟩, fun _ => ⟨_, rfl, rfl⟩⟩
      · cases hp
      · cases hshape

/-- **Which segments are extruded.**  A model of its own, whatever happened to it before, makes a
patch over every circle, over the arcs that have a sweep, and over the lines whose wall has an area;
over the rest it makes none.  Which of the heights is the top does not matter for that, in this model
or in another. -/
theorem extrude_iff_extrudable (hs : s.Built) (hw : Registry.Reaches 0 .empty w.registry)
    (hheights : extrusionTol ≤ |zTop - zBottom|) :
    ((∃ p, (Operand.extrude (some .keeping) (.segment s) zTop zBottom extrusionTol w).1 = .ok p) ↔
      s.Extrudable |zTop - zBottom|) ∧
    (¬ s.Extrudable |zTop - zBottom| → Refuses (Operand.extrude (some .keeping) (.segment s) zTop
      zBottom extrusionTol w).1 .surfaceConstructionFailed) ∧
    ∀ w' : Workshop ℝ, Registry.Reaches 0 .empty w'.registry →
      ((∃ p, (Operand.extrude (some .keeping) (.segment s) zBottom zTop extrusionTol w').1 = .ok p) ↔
        ∃ p, (Operand.extrude (some .keeping) (.segment s) zTop zBottom extrusionTol w).1 = .ok p) ∧
      ∀ p p',
        (Operand.extrude (some .keeping) (.segment s) zTop zBottom extrusionTol w).1 = .ok p →
        (Operand.extrude (some .keeping) (.segment s) zBottom zTop extrusionTol w').1 = .ok p' →
        s.Flipped p.shape p'.shape := by
  obtain ⟨hiff, hrefused⟩ := extrude_verdict hs hw hheights
  refine ⟨hiff, hrefused, fun w' hw' => ⟨?_, fun p p' hp hp' => ?_⟩⟩
  · obtain ⟨hiff', -⟩ := extrude_verdict hs hw' (abs_sub_comm zTop zBottom ▸ hheights)
    rw [hiff', hiff, abs_sub_comm]
  · exact flipped_of_swept (Operand.swept_of_extrude hp) (Operand.swept_of_extrude hp')

/-- A line that is barely long enough to be one. -/
noncomputable def barelyLong : Line ℝ := ⟨⟨0, 0, 0⟩, ⟨2e-8, 0, 0⟩⟩

lemma length_barelyLong : (line barelyLong).length = 2e-8 := by
  show (⟨0, 0, 0⟩ : Point ℝ).dist ⟨2e-8, 0, 0⟩ = 2e-8
  rw [Point.dist_comm]
  exact Point.dist_origin (by norm_num) (by ring)

/-- Over the line there is a wall of height three, from either side, but none of height an eighth. -/
theorem extrude_iff_extrudable_barelyLong :
    Built (.line barelyLong) ∧
    (∃ p p', (Operand.extrude (some .keeping) (.segment (.line barelyLong)) 3 0 extrusionTol
        ⟨.empty, .empty⟩).1 = .ok p ∧
      (Operand.extrude (some .keeping) (.segment (.line barelyLong)) 0 3 extrusionTol
        ⟨.empty, .empty⟩).1 = .ok p' ∧ Flipped (.line barelyLong) p.shape p'.shape) ∧
    Refuses (Operand.extrude (some .keeping) (.segment (.line barelyLong)) (1 / 8) 0 extrusionTol
      ⟨.empty, .empty⟩).1 .surfaceConstructionFailed := by
  have hbuilt : Built (.line barelyLong) := by
    refine .ofLine (Line.ofEnds_of_lt rfl rfl (.inl ?_))
    rw [coincidentTol_eq]
    norm_num
  have hempty : Registry.Reaches 0 (.empty : Registry ℝ) .empty := .refl
  have hthree : extrusionTol ≤ |(3 : ℝ) - 0| := by
    rw [extrusionTol_eq]
    norm_num
  have heighth : extrusionTol ≤ |(1 / 8 : ℝ) - 0| := by
    rw [extrusionTol_eq]
    norm_num
  obtain ⟨htall, -, hflip⟩ := extrude_iff_extrudable (w := ⟨.empty, .empty⟩) hbuilt hempty hthree
  obtain ⟨-, hlow, -⟩ := extrude_iff_extrudable (w := ⟨.empty, .empty⟩) hbuilt hempty heighth
  obtain ⟨hiff, hshapes⟩ := hflip ⟨.empty, .empty⟩ hempty
  have htop : ∃ p, (Operand.extrude (some .keeping) (.segment (.line barelyLong)) 3 0 extrusionTol
      ⟨.empty, .empty⟩).1 = .ok p := by
    refine htall.mpr ?_
    rw [Extrudable, length_barelyLong, coincidentTol_eq]
    norm_num
  obtain ⟨p, hp⟩ := htop
  obtain ⟨p', hp'⟩ := hiff.mpr ⟨p, hp⟩
  refine ⟨hbuilt, ⟨p, p', hp, hp', hshapes p p' hp hp'⟩, hlow ?_⟩
  rw [Extrudable, length_barelyLong, coincidentTol_eq]
  norm_num

end Segment

end Contour
