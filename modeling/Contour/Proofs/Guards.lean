import Contour.Proofs.Construction
import Contour.Proofs.Patches
import Contour.Proofs.Signs

/-!
# What the guards leave

Circles, curves, cylinders and planes are guarded by comparisons that refuse: a radius is refused if
it is no larger than a bound, and accepted otherwise.  A comparison with what is no number is false,
and so nothing refuses it.  Of doubles, what a guard is for therefore holds of an accepted value iff
the guard compared numbers.

* `Numeric` — doubles all of which are numbers.
* `Point.mag_pos`, `Point.numeric_of_mag` — the length of a displacement of doubles.
* `Cylinder.Sound`, `Plane.Sound` — what the guards of the two patches are for.
* `Circle.radius_pos_iff`, `Curve.radius_pos_iff`, `Cylinder.sound_iff`, `Plane.sound_iff` — when the
  guards of each kind do their work, together in `guards_hold_iff`.
* `guards_admit_nan` — what each of them lets through.
-/

namespace Contour

/-- None of these doubles is other than a number. -/
def Numeric (xs : List Float) : Prop := ∀ x ∈ xs, x.isNaN = false

instance (xs : List Float) : Decidable (Numeric xs) := inferInstanceAs (Decidable (∀ x ∈ xs, _))

lemma numeric_nil : Numeric [] := by simp [Numeric]

lemma numeric_cons {x : Float} {xs : List Float} :
    Numeric (x :: xs) ↔ x.isNaN = false ∧ Numeric xs := List.forall_mem_cons

/-! ## Lengths -/

namespace Point

open Double

variable {p q : Point Float}

lemma mem_toList {d : Float} : d ∈ p.toList ↔ d = p.x ∨ d = p.y ∨ d = p.z := by
  simp only [toList, List.mem_cons, List.not_mem_nil, or_false]

lemma numeric_toList :
    Numeric p.toList ↔ p.x.isNaN = false ∧ p.y.isNaN = false ∧ p.z.isNaN = false := by
  simp only [toList, numeric_cons, and_iff_left numeric_nil]

/-- **A displacement of numbers has a length above zero** if one of its coordinates is larger than
the tolerance. -/
lemma mag_pos (hnum : Numeric p.toList) (h : ∃ d ∈ p.toList, coincidentTol < Elementary.abs d) :
    0 < p.mag := by
  obtain ⟨hx, hy, hz⟩ := numeric_toList.mp hnum
  obtain ⟨hxy, hxyAbove⟩ := sum_signs (notBelow_mul_self hx) (notBelow_mul_self hy)
  obtain ⟨-, hsumAbove⟩ := sum_signs hxy (notBelow_mul_self hz)
  have hsum : Above (p.dot p).toModel.unpack := by
    obtain ⟨d, hd, hlarge⟩ := h
    rcases mem_toList.mp hd with rfl | rfl | rfl
    · exact hsumAbove (.inl (hxyAbove (.inl (above_mul_self hlarge))))
    · exact hsumAbove (.inl (hxyAbove (.inr (above_mul_self hlarge))))
    · exact hsumAbove (.inr (above_mul_self hlarge))
  exact pos_iff.mpr (above_sqrt hsum)

/-- A length that is a number is that of a displacement of numbers. -/
lemma numeric_of_mag (h : p.mag.isNaN = false) : Numeric p.toList := by
  intro d hd
  by_contra hnan
  rw [Bool.not_eq_false] at hnan
  have hsum : (p.dot p).isNaN = true := by
    rcases mem_toList.mp hd with rfl | rfl | rfl
    · exact isNaN_add (.inl (isNaN_add (.inl (isNaN_mul_self hnan))))
    · exact isNaN_add (.inl (isNaN_add (.inr (isNaN_mul_self hnan))))
    · exact isNaN_add (.inr (isNaN_mul_self hnan))
  exact Bool.false_ne_true (h.symm.trans (isNaN_sqrt hsum))

/-- Points that do not agree have a distance above zero iff their coordinates can be subtracted. -/
lemma dist_pos_iff_numeric (h : p.agrees q coincidentTol = false) :
    0 < p.dist q ↔ Numeric (p.sub q).toList := by
  refine ⟨fun hpos => numeric_of_mag (not_nan_of_lt hpos).2, fun hnum => mag_pos hnum ?_⟩
  obtain ⟨hx, hy, hz⟩ := numeric_toList.mp hnum
  -- a coordinate that is not within the tolerance is larger than it, being a number
  have hlarge : ∀ {d : Float}, d.isNaN = false → ¬ Elementary.abs d ≤ coincidentTol →
      coincidentTol < Elementary.abs d := by
    intro d hd hnot
    rcases not_le_iff.mp hnot with hlt | hnan | hnan
    · exact hlt
    · rw [isNaN_abs, hd] at hnan
      cases hnan
    · cases hnan
  simp only [agrees, Bool.and_eq_false_iff, decide_eq_false_iff_not] at h
  rcases h with (h | h) | h
  · exact ⟨_, .head _, hlarge hx h⟩
  · exact ⟨_, .tail _ (.head _), hlarge hy h⟩
  · exact ⟨_, .tail _ (.tail _ (.head _)), hlarge hz h⟩

/-- What is subtracted from itself leaves zeros, whatever it is multiplied with. -/
lemma nil_dot_sub_self (p q : Point Float) : Nil ((p.sub p).dot q).toModel.unpack :=
  have hmul (x y : Float) : Nil ((x - x) * y).toModel.unpack :=
    pack_nil (nil_mul (pack_nil (nil_sub_self _)) _)
  pack_nil (nil_add (pack_nil (nil_add (hmul _ _) (hmul _ _))) (hmul _ _))

end Point

/-! ## What the guards are for -/

/-- What the guards of a cylinder are for. -/
structure Cylinder.Sound (c : Cylinder Float) : Prop where
  radius_pos : 0 < c.radius
  angles_lt : c.startAngle < c.endAngle
  height_le : extrusionTol ≤ c.top - c.bottom

/-- What the guards of a plane are for: corners that span an area, and lie in the plane through the
first of them. -/
structure Plane.Sound (p : Plane Float) : Prop where
  area_le : coincidentTol ≤ p.corners.normalSum.mag
  flat : ∀ corner ∈ p.corners.toList,
    Elementary.abs ((corner.sub p.corners.first).dot p.normal) ≤ coincidentTol

/-- The heights of the corners of a plane over the first of them. -/
def Plane.heights (p : Plane Float) : List Float :=
  p.corners.toList.map fun corner => (corner.sub p.corners.first).dot p.normal

open Double

/-! ## Circles and curves -/

lemma Circle.radius_pos_iff {center : Point Float} {radius : Float} {c : Circle Float}
    (h : Circle.ofRadius center radius coincidentTol = .ok c) :
    0 < c.radius ↔ Numeric [radius] := by
  unfold Circle.ofRadius at h
  split_ifs at h with hplanar hradius
  · cases h
  · cases h
  · cases h
    rw [numeric_cons, and_iff_left numeric_nil]
    exact ⟨fun hpos => (not_nan_of_lt hpos).2,
      fun hnum => pos_of_coincidentTol_lt (lt_of_not_le hnum rfl hradius)⟩

lemma Curve.radius_pos_iff {center start stop : Point Float} {clockwise : Bool} {c : Curve Float}
    (h : Curve.ofEnds center start stop clockwise coincidentTol radiusTol = .ok c) :
    0 < c.radius ↔ Numeric (start.sub center).toList := by
  obtain ⟨hradius, hcenter⟩ := Curve.radius_of_ofEnds h
  rw [hradius]
  exact Point.dist_pos_iff_numeric ((Point.agrees_comm _ _ _).trans hcenter)

/-! ## Patches -/

lemma Cylinder.sound_iff {center : Point Float} {radius startAngle endAngle bottom top : Float}
    {c : Cylinder Float}
    (h : Cylinder.ofRanges center radius startAngle endAngle bottom top = .ok c) :
    c.Sound ↔ Numeric [radius, startAngle, endAngle, top - bottom] := by
  obtain ⟨hradius, hangles, hheights⟩ := Cylinder.ofRanges_checked h
  obtain rfl := Cylinder.ofRanges_eq_ok h
  simp only [numeric_cons, and_iff_left numeric_nil]
  constructor
  · rintro ⟨hpos, hlt, hle⟩
    exact ⟨(not_nan_of_lt hpos).2, (not_nan_of_lt hlt).1, (not_nan_of_lt hlt).2,
      (not_nan_of_le hle).2⟩
  · rintro ⟨hr, hs, he, hh⟩
    exact ⟨lt_of_not_le hr rfl hradius, lt_of_not_le he hs hangles, le_of_not_lt hh rfl hheights⟩

lemma Plane.sound_iff {q : Quad Float} {p : Plane Float}
    (h : Plane.ofCorners q coincidentTol = .ok p) :
    p.Sound ↔ Numeric (p.corners.normalSum.mag :: p.heights) := by
  obtain ⟨rfl, hspans, -, hflat, -⟩ := Plane.ofCorners_eq_ok_iff.mp h
  rw [numeric_cons]
  constructor
  · rintro ⟨hle, hheights⟩
    refine ⟨(not_nan_of_le hle).2, fun height hheight => ?_⟩
    obtain ⟨corner, hcorner, rfl⟩ := List.mem_map.mp hheight
    rw [← isNaN_abs]
    exact (not_nan_of_le (hheights corner hcorner)).1
  · rintro ⟨hsize, hheights⟩
    refine ⟨le_of_not_lt hsize rfl hspans, fun corner hcorner => ?_⟩
    have hnum := hheights _ (List.mem_map_of_mem hcorner)
    rcases List.mem_cons.mp hcorner with rfl | hcorner
    · exact abs_le_of_nil (Point.nil_dot_sub_self _ _) hnum
    · exact le_of_not_lt rfl ((isNaN_abs _).trans hnum) (hflat corner hcorner)

/-- **What the guards are for holds of what they accept iff they compared numbers.**  A circle and a
curve have a radius above zero iff the radius, or the way from the center to the first point, is
made of numbers; a cylinder is sound iff its radius, its angles and its height are numbers, and a
plane iff the length of its normal and the heights of its corners are. -/
theorem guards_hold_iff (center start stop : Point Float) (clockwise : Bool)
    (radius startAngle endAngle bottom top : Float) (q : Quad Float) :
    (∀ c, Circle.ofRadius center radius coincidentTol = .ok c →
      (0 < c.radius ↔ Numeric [radius])) ∧
    (∀ c, Curve.ofEnds center start stop clockwise coincidentTol radiusTol = .ok c →
      (0 < c.radius ↔ Numeric (start.sub center).toList)) ∧
    (∀ c, Cylinder.ofRanges center radius startAngle endAngle bottom top = .ok c →
      (c.Sound ↔ Numeric [radius, startAngle, endAngle, top - bottom])) ∧
    ∀ p, Plane.ofCorners q coincidentTol = .ok p →
      (p.Sound ↔ Numeric (p.corners.normalSum.mag :: p.heights)) :=
  ⟨fun _ => Circle.radius_pos_iff, fun _ => Curve.radius_pos_iff, fun _ => Cylinder.sound_iff,
    fun _ => Plane.sound_iff⟩

/-- The corners of a square in the plane of the segments. -/
def Quad.square (side : Float) : Quad Float :=
  ⟨⟨0, 0, 0⟩, ⟨side, 0, 0⟩, ⟨side, side, 0⟩, ⟨0, side, 0⟩⟩

theorem guards_hold_iff_unit :
    (∃ c, Circle.ofRadius (⟨0, 0, 0⟩ : Point Float) 1 coincidentTol = .ok c ∧ 0 < c.radius) ∧
    (∃ c, Curve.ofEnds (⟨0, 0, 0⟩ : Point Float) ⟨1, 0, 0⟩ ⟨0, 1, 0⟩ false coincidentTol radiusTol
      = .ok c ∧ 0 < c.radius) ∧
    (∃ c, Cylinder.ofRanges (⟨0, 0, 0⟩ : Point Float) 1 0 1 0 3 = .ok c ∧ c.Sound) ∧
    ∃ p, Plane.ofCorners (.square 1) coincidentTol = .ok p ∧ p.Sound := by
  have hsquare : Plane.ofCorners (.square 1) coincidentTol = .ok ⟨.square 1, ⟨0, 0, 1⟩, 1⟩ :=
    Plane.ofCorners_eq_ok_iff.mpr ⟨rfl, by decide +kernel,
      ⟨_, if_neg (by decide +kernel), by decide +kernel⟩, by decide +kernel, by decide +kernel⟩
  have hquarter : ∃ c, Curve.ofEnds (⟨0, 0, 0⟩ : Point Float) ⟨1, 0, 0⟩ ⟨0, 1, 0⟩ false coincidentTol
      radiusTol = .ok c := by
    unfold Curve.ofEnds
    rw [if_neg (by decide +kernel), if_neg (by decide +kernel)]
    dsimp only
    rw [if_neg (by decide +kernel), if_neg (by decide +kernel)]
    exact ⟨_, rfl⟩
  obtain ⟨quarter, hquarter⟩ := hquarter
  obtain ⟨hcircle, hcurve, hcylinder, hplane⟩ :=
    guards_hold_iff ⟨0, 0, 0⟩ ⟨1, 0, 0⟩ ⟨0, 1, 0⟩ false 1 0 1 0 3 (.square 1)
  refine ⟨⟨_, rfl, ?_⟩, ⟨quarter, hquarter, ?_⟩, ⟨_, rfl, ?_⟩, ⟨_, hsquare, ?_⟩⟩
  · exact (hcircle _ rfl).mpr (by decide +kernel)
  · exact (hcurve _ hquarter).mpr (by decide +kernel)
  · exact (hcylinder _ rfl).mpr (by decide +kernel)
  · exact (hplane _ hsquare).mpr (by decide +kernel)

/-- **Each of the guards lets through what is no number**, a plane even where its corners are
numbers: their products overflow. -/
theorem guards_admit_nan :
    (∃ c, Circle.ofRadius (⟨0, 0, 0⟩ : Point Float) Float.nan coincidentTol = .ok c ∧
      ¬ 0 < c.radius) ∧
    (∃ c, Curve.ofEnds (⟨Float.nan, 0, 0⟩ : Point Float) ⟨1, 0, 0⟩ ⟨0, 1, 0⟩ false coincidentTol
      radiusTol = .ok c ∧ ¬ 0 < c.radius) ∧
    (∃ c, Cylinder.ofRanges (⟨0, 0, 0⟩ : Point Float) 1 0 1 Float.inf Float.inf = .ok c ∧
      ¬ c.Sound) ∧
    ∃ p, Plane.ofCorners (.square 1e200) coincidentTol = .ok p ∧ ¬ p.Sound := by
  have hsquare : Plane.ofCorners (.square 1e200) coincidentTol
      = .ok ⟨.square 1e200, ⟨0, 0, Float.nan⟩, Float.inf⟩ :=
    Plane.ofCorners_eq_ok_iff.mpr ⟨rfl, by decide +kernel,
      ⟨_, if_neg (by decide +kernel), by decide +kernel⟩, by decide +kernel, by decide +kernel⟩
  refine ⟨⟨_, rfl, by decide +kernel⟩, ⟨_, rfl, by decide +kernel⟩, ⟨_, rfl, fun h => ?_⟩,
    ⟨_, hsquare, fun h => ?_⟩⟩
  · exact absurd h.height_le (by decide +kernel)
  · exact absurd (h.flat ⟨1e200, 0, 0⟩ (.tail _ (.head _))) (by decide +kernel)

end Contour
