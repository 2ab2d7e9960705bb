import Contour.Proofs.Facing

/-!
# Flat patches that fold

A flat patch is the bilinear image of a square, and nothing but its area and its flatness is checked.
Its boundary may turn to the right at a corner, or cross itself, and then some of the square is laid
down upside down.  The file says, over the real numbers, which grids divide a flat patch into triangles
that all face along its normal.  A triangle faces along the normal as far as the boundary turns to the
left in the mean, where the corners weigh by their nearness to the place at which two sides of a cell
meet; this mean is affine, so that it is least near one of the corners.

* `Plane.turn` — how far the boundary turns to the left at a corner; opposite turns have one sum, which
  is twice the area (`Plane.turn_add_turn`, `Plane.normalSum_dot_normal`).
* `cornerMean`, `cornerMean_pos` — means of four numbers, and where they are positive.
* `Plane.spread` — the mean of the turns; `Plane.facing_below`, `Plane.facing_above`.
* `Plane.Unfolded`, `Plane.outward_iff` — the condition for a grid of `n` by `m` cells, and
  `Plane.unfolded_forall_iff` — the condition for all grids.
* `Plane.mesh_outward_iff` — which meshes of a flat patch face along its normal.
* `Plane.turnedDart_folds` — a quadrilateral with a corner that points inwards.
* `Line.unfolded_wall`, `Line.wall_outward` — walls never fold.
-/

namespace Contour

/-! ## Means of four numbers at the corners of a square -/

section CornerMean

variable {a b c d u v : ℝ}

/-- The mean of four numbers at the corners of the unit square, in the order of its boundary, weighted
by the nearness of a point to each. -/
def cornerMean (a b c d u v : ℝ) : ℝ :=
  (1 - u) * (1 - v) * a + u * (1 - v) * b + u * v * c + (1 - u) * v * d

lemma cornerMean_flip (a b c d u v : ℝ) : cornerMean a d c b v u = cornerMean a b c d u v := by
  simp only [cornerMean]
  ring

/-- Numbers whose opposite sums agree have an affine mean, seen from the first corner. -/
lemma cornerMean_eq_first (h : a + c = b + d) :
    cornerMean a b c d u v = a + u * (b - a) + v * (d - a) := by
  simp only [cornerMean]
  linear_combination u * v * h

lemma cornerMean_eq_third (h : a + c = b + d) :
    cornerMean a b c d u v = c + (1 - u) * (d - c) + (1 - v) * (b - c) := by
  simp only [cornerMean]
  linear_combination (1 - u) * (1 - v) * h

/-- **Where a mean is positive.**  If it is so at the second and the fourth corner, and at a point of
each side that meets in the second, then it is so in the rectangle that the two points span with the
second corner. -/
lemma cornerMean_pos (h : a + c = b + d) {s r : ℝ} (hb : 0 < b) (hd : 0 < d)
    (hfirst : 0 < (1 - s) * a + s * b) (hthird : 0 < (1 - r) * c + r * b) (hs : 0 < s) (hr : 0 < r)
    (hu : s ≤ u) (hu' : u ≤ 1) (hv : 0 ≤ v) (hv' : r ≤ 1 - v) : 0 < cornerMean a b c d u v := by
  have hleft : 0 ≤ 1 - u := sub_nonneg.mpr hu'
  have hright : 0 < u := hs.trans_le hu
  have hlow : 0 < 1 - v := hr.trans_le hv'
  -- a corner with a negative number is where the affine mean is least, and the point is away from it
  rcases lt_or_ge a 0 with ha | ha
  · rw [cornerMean_eq_first h]
    have hside : s * (b - a) ≤ u * (b - a) := mul_le_mul_of_nonneg_right hu (by linarith)
    have hacross : 0 ≤ v * (d - a) := mul_nonneg hv (by linarith)
    linarith
  rcases lt_or_ge c 0 with hc | hc
  · rw [cornerMean_eq_third h]
    have hside : r * (b - c) ≤ (1 - v) * (b - c) := mul_le_mul_of_nonneg_right hv' (by linarith)
    have hacross : 0 ≤ (1 - u) * (d - c) := mul_nonneg hleft (by linarith)
    linarith
  · rw [cornerMean]
    positivity

end CornerMean

/-! ## Grids over the unit square -/

namespace Grid

variable {n i : ℕ}

/-- The first and the last two numbers that divide the unit range. -/
lemma node_unit (hn : 0 < n) : node (0, 1) n 0 = 0 ∧ node (0, 1) n 1 = 1 / n ∧
    node (0, 1) n (n - 1) = 1 - 1 / n ∧ node (0, 1) n (n - 1 + 1) = 1 := by
  have hlast := node_last ((0, 1) : ℝ × ℝ) hn
  have hstep := node_succ_sub ((0, 1) : ℝ × ℝ) n (n - 1)
  rw [Nat.sub_add_cancel hn] at hstep ⊢
  rw [hlast, sub_zero] at hstep
  exact ⟨node_zero _ n, by simp [node], by linarith, hlast⟩

/-- The two ends of a step are a step away from one end of the unit range each. -/
lemma node_bounds (hi : i < n) : 0 ≤ node (0, 1) n i ∧ node (0, 1) n i ≤ 1 - 1 / n ∧
    1 / n ≤ node (0, 1) n (i + 1) ∧ node (0, 1) n (i + 1) ≤ 1 := by
  have hunit : ((0, 1) : ℝ × ℝ).1 ≤ ((0, 1) : ℝ × ℝ).2 := zero_le_one
  have hlow := (node_mem hunit hi.le).1
  have hhigh := (node_mem hunit hi).2
  have hstep := node_succ_sub ((0, 1) : ℝ × ℝ) n i
  rw [sub_zero] at hstep
  exact ⟨hlow, by linarith, by linarith, hhigh⟩

end Grid

/-! ## Turns of a boundary -/

/-- The corners of a quadrilateral by their numbers, which go round. -/
def Quad.corner (q : Quad ℝ) : Fin 4 → Point ℝ := ![q.first, q.second, q.third, q.fourth]

namespace Plane

variable {p : Plane ℝ} {q : Quad ℝ} {tol : ℝ}

/-- How far the boundary turns to the left at a corner, seen from the tip of the normal. -/
def turn (p : Plane ℝ) (k : Fin 4) : ℝ :=
  (((p.corners.corner k).sub (p.corners.corner (k - 1))).cross
    ((p.corners.corner (k + 1)).sub (p.corners.corner k))).dot p.normal

lemma turn_first (p : Plane ℝ) : p.turn 0 = ((p.corners.first.sub p.corners.fourth).cross
    (p.corners.second.sub p.corners.first)).dot p.normal := rfl

lemma turn_second (p : Plane ℝ) : p.turn 1 = ((p.corners.second.sub p.corners.first).cross
    (p.corners.third.sub p.corners.second)).dot p.normal := rfl

lemma turn_third (p : Plane ℝ) : p.turn 2 = ((p.corners.third.sub p.corners.second).cross
    (p.corners.fourth.sub p.corners.third)).dot p.normal := rfl

lemma turn_fourth (p : Plane ℝ) : p.turn 3 = ((p.corners.fourth.sub p.corners.third).cross
    (p.corners.first.sub p.corners.fourth)).dot p.normal := rfl

/-- Each pair of opposite turns adds up to the same. -/
lemma turn_add_turn (p : Plane ℝ) : p.turn 0 + p.turn 2 = p.corners.normalSum.dot p.normal ∧
    p.turn 1 + p.turn 3 = p.corners.normalSum.dot p.normal := by
  simp only [turn_first, turn_second, turn_third, turn_fourth, Quad.normalSum, List.foldl_cons,
    List.foldl_nil, Point.sub, Point.add, Point.cross, Point.dot]
  constructor <;> ring

lemma opposite_turns (p : Plane ℝ) : p.turn 0 + p.turn 2 = p.turn 1 + p.turn 3 :=
  p.turn_add_turn.1.trans p.turn_add_turn.2.symm

/-- The normal of an accepted patch spans twice its area, so that its boundary turns to the left in
the mean. -/
lemma normalSum_dot_normal (h : Plane.ofCorners q tol = .ok p) :
    0 < p.area ∧ p.corners.normalSum.dot p.normal = 2 * p.area := by
  obtain ⟨hsize, rfl, hnormal⟩ := ofCorners_eq_ok h
  have harea := (ofCorners_eq_ok_iff.mp h).area_eq
  have hsquare : p.corners.normalSum.dot p.corners.normalSum = p.corners.normalSum.mag ^ 2 :=
    (Real.sq_sqrt p.corners.normalSum.dot_self_nonneg).symm
  constructor
  · rw [harea]
    positivity
  · have hscale : p.corners.normalSum.dot p.normal
        = p.corners.normalSum.dot p.corners.normalSum * (1 / p.corners.normalSum.mag) := by
      rw [hnormal]
      simp only [Point.dot, Point.scale]
      ring
    rw [hscale, hsquare, harea]
    field_simp
    norm_num

/-! ## Triangles of a flat patch -/

/-- The mean of the turns of the boundary, weighted by the nearness of two parameters to the
corners. -/
def spread (p : Plane ℝ) (u v : ℝ) : ℝ :=
  cornerMean (p.turn 0) (p.turn 1) (p.turn 2) (p.turn 3) u v

lemma facing_below (p : Plane ℝ) (u u' v v' : ℝ) :
    (Point.facing (p.evaluate u v) (p.evaluate u' v) (p.evaluate u' v')).dot p.normal
      = (u' - u) * (v' - v) * p.spread u' v := by
  simp only [spread, cornerMean, turn_first, turn_second, turn_third, turn_fourth, Point.facing,
    evaluate, Point.lerp, Point.sub, Point.cross, Point.dot]
  ring

lemma facing_above (p : Plane ℝ) (u u' v v' : ℝ) :
    (Point.facing (p.evaluate u v) (p.evaluate u' v') (p.evaluate u v')).dot p.normal
      = (u' - u) * (v' - v) * p.spread u v' := by
  simp only [spread, cornerMean, turn_first, turn_second, turn_third, turn_fourth, Point.facing,
    evaluate, Point.lerp, Point.sub, Point.cross, Point.dot]
  ring

variable {n m : ℕ} {mesh : Mesh ℝ}

/-- The mesh over `n` by `m` cells of a flat patch. -/
def Gridded (p : Plane ℝ) (n m : ℕ) (mesh : Mesh ℝ) : Prop :=
  mesh.Over n m (fun i j => p.evaluate (Grid.node (0, 1) n i) (Grid.node (0, 1) m j))
    (fun _ _ => p.normal)

lemma exists_gridded (p : Plane ℝ) (hn : 0 < n) (hm : 0 < m) :
    ∃ mesh, (Shape.plane p).mesh (some n) m = .ok mesh ∧ p.Gridded n m mesh := by
  have hpoint : ∀ u v, (Shape.plane p).evaluate u v = .ok (p.evaluate u v) := fun _ _ => rfl
  have hnormal : ∀ u v, (Shape.plane p).normalAt u v = .ok p.normal := fun _ _ => rfl
  exact Shape.mesh_over hn hm hpoint hnormal

/-- The corners of the grid are those of the patch. -/
lemma Gridded.corners (h : p.Gridded n m mesh) (hn : 0 < n) (hm : 0 < m) :
    mesh.vertices[Grid.corner n 0 0]? = some p.corners.first ∧
    mesh.vertices[Grid.corner n n 0]? = some p.corners.second ∧
    mesh.vertices[Grid.corner n n m]? = some p.corners.third ∧
    mesh.vertices[Grid.corner n 0 m]? = some p.corners.fourth := by
  obtain ⟨⟨-, hcorner⟩, -, -⟩ := h
  rw [hcorner 0 n.zero_le 0 m.zero_le, hcorner n le_rfl 0 m.zero_le, hcorner n le_rfl m le_rfl,
    hcorner 0 n.zero_le m le_rfl, Grid.node_zero, Grid.node_zero, Grid.node_last _ hn,
    Grid.node_last _ hm]
  simp [evaluate, Point.lerp]

/-- A mesh faces along the normal iff the boundary turns to the left in the mean at the lower right and
the upper left corner of each cell. -/
lemma outward_iff_spread (h : p.Gridded n m mesh) (hn : 0 < n) (hm : 0 < m) :
    mesh.Outward ↔ ∀ i < n, ∀ j < m,
      0 < p.spread (Grid.node (0, 1) n (i + 1)) (Grid.node (0, 1) m j) ∧
      0 < p.spread (Grid.node (0, 1) n i) (Grid.node (0, 1) m (j + 1)) := by
  have hcell : (0 : ℝ) < (1 - 0) / n * ((1 - 0) / m) := by
    have hn' : (0 : ℝ) < n := Nat.cast_pos.mpr hn
    have hm' : (0 : ℝ) < m := Nat.cast_pos.mpr hm
    positivity
  rw [h.outward_iff]
  refine forall₂_congr fun i _ => forall₂_congr fun j _ => ?_
  simp only [List.forall_mem_cons, List.not_mem_nil, false_imp_iff, implies_true, and_true, and_self,
    facing_below, facing_above, Grid.node_succ_sub]
  exact and_congr (mul_pos_iff_of_pos_left hcell) (mul_pos_iff_of_pos_left hcell)

/-! ## Grids without a fold -/

/-- **The condition for a grid of `n` by `m` cells without a fold.**  The boundary turns to the left at
the second and the fourth corner.  It may turn to the right at another one, if that is less than it
turns to the left at the other end of either side, when counted once for every cell along the side but
one. -/
structure Unfolded (p : Plane ℝ) (n m : ℕ) : Prop where
  second : 0 < p.turn 1
  fourth : 0 < p.turn 3
  first_along : 0 < (n - 1) * p.turn 0 + p.turn 1
  first_across : 0 < (m - 1) * p.turn 0 + p.turn 3
  third_along : 0 < (n - 1) * p.turn 2 + p.turn 3
  third_across : 0 < (m - 1) * p.turn 2 + p.turn 1

/-- What lies one of `n` parts of the way from one number to another. -/
lemma part_pos_iff (hn : 0 < n) (a b : ℝ) :
    0 < (1 - 1 / n) * a + 1 / n * b ↔ 0 < (n - 1) * a + b := by
  have hn' : (0 : ℝ) < n := Nat.cast_pos.mpr hn
  have hpart : (1 - 1 / n) * a + 1 / n * b = ((n - 1) * a + b) / n := by field_simp
  rw [hpart, div_pos_iff_of_pos_right hn']

/-- **The condition is the right one**: the cells at the four corners of the grid decide. -/
lemma outward_iff (h : p.Gridded n m mesh) (hn : 0 < n) (hm : 0 < m) :
    mesh.Outward ↔ p.Unfolded n m := by
  rw [outward_iff_spread h hn hm]
  obtain ⟨hn_zero, hn_one, hn_pred, hn_last⟩ := Grid.node_unit hn
  obtain ⟨hm_zero, hm_one, hm_pred, hm_last⟩ := Grid.node_unit hm
  constructor
  · intro hcells
    have hfirst := hcells 0 hn 0 hm
    have hsecond := hcells (n - 1) (Nat.sub_lt hn one_pos) 0 hm
    have hthird := hcells (n - 1) (Nat.sub_lt hn one_pos) (m - 1) (Nat.sub_lt hm one_pos)
    have hfourth := hcells 0 hn (m - 1) (Nat.sub_lt hm one_pos)
    simp only [zero_add, hn_zero, hn_one, hn_pred, hn_last, hm_zero, hm_one, hm_pred, hm_last, spread,
      cornerMean] at hfirst hsecond hthird hfourth
    refine ⟨by linarith [hsecond.1], by linarith [hfourth.2], (part_pos_iff hn _ _).mp ?_,
      (part_pos_iff hm _ _).mp ?_, (part_pos_iff hn _ _).mp ?_, (part_pos_iff hm _ _).mp ?_⟩
    · linarith [hfirst.1]
    · linarith [hfirst.2]
    · linarith [hthird.2]
    · linarith [hthird.1]
  · intro hunfolded i hi j hj
    obtain ⟨hu, hu', hw, hw'⟩ := Grid.node_bounds hi
    obtain ⟨hv, hv', hx, hx'⟩ := Grid.node_bounds hj
    have hn_part : (0 : ℝ) < 1 / n := one_div_pos.mpr (Nat.cast_pos.mpr hn)
    have hm_part : (0 : ℝ) < 1 / m := one_div_pos.mpr (Nat.cast_pos.mpr hm)
    constructor
    · exact cornerMean_pos p.opposite_turns hunfolded.second hunfolded.fourth
        ((part_pos_iff hn _ _).mpr hunfolded.first_along)
        ((part_pos_iff hm _ _).mpr hunfolded.third_across) hn_part hm_part hw hw' hv (by linarith)
    · rw [spread, ← cornerMean_flip]
      exact cornerMean_pos (p.opposite_turns.trans (add_comm _ _)) hunfolded.fourth hunfolded.second
        ((part_pos_iff hm _ _).mpr hunfolded.first_across)
        ((part_pos_iff hn _ _).mpr hunfolded.third_along) hm_part hn_part hx hx' hu (by linarith)

/-- What is negative outweighs everything when it counts often enough. -/
lemma nonneg_of_forall_pos {a b : ℝ} (h : ∀ n : ℕ, 0 < n → 0 < ((n : ℝ) - 1) * a + b) : 0 ≤ a := by
  by_contra hneg
  rw [not_le] at hneg
  obtain ⟨k, hk⟩ := exists_nat_gt (b / -a)
  rw [div_lt_iff₀ (neg_pos.mpr hneg)] at hk
  have hlast := h (k + 1) k.succ_pos
  push_cast at hlast
  linarith

/-- **A flat patch has no fold in any grid** iff its boundary turns to the left at the second and the
fourth corner, and to the right at none. -/
lemma unfolded_forall_iff : (∀ n m : ℕ, 0 < n → 0 < m → p.Unfolded n m) ↔
    (0 < p.turn 1 ∧ 0 < p.turn 3) ∧ 0 ≤ p.turn 0 ∧ 0 ≤ p.turn 2 := by
  constructor
  · intro h
    have hone := h 1 1 one_pos one_pos
    exact ⟨⟨hone.second, hone.fourth⟩, nonneg_of_forall_pos fun n hn => (h n 1 hn one_pos).first_along,
      nonneg_of_forall_pos fun n hn => (h n 1 hn one_pos).third_along⟩
  · rintro ⟨⟨hsecond, hfourth⟩, hfirst, hthird⟩ n m hn hm
    have hn' : (0 : ℝ) ≤ n - 1 := sub_nonneg.mpr (Nat.one_le_cast.mpr hn)
    have hm' : (0 : ℝ) ≤ m - 1 := sub_nonneg.mpr (Nat.one_le_cast.mpr hm)
    exact ⟨hsecond, hfourth, add_pos_of_nonneg_of_pos (mul_nonneg hn' hfirst) hsecond,
      add_pos_of_nonneg_of_pos (mul_nonneg hm' hfirst) hfourth,
      add_pos_of_nonneg_of_pos (mul_nonneg hn' hthird) hfourth,
      add_pos_of_nonneg_of_pos (mul_nonneg hm' hthird) hsecond⟩

/-- **The meshes of a flat patch that face along its normal** are those over grids without a fold.
Opposite turns of the boundary add up to twice the area, so that a patch turns to the left at two
corners at least. -/
theorem mesh_outward_iff (h : Plane.ofCorners q tol = .ok p) :
    (0 < p.area ∧ p.turn 0 + p.turn 2 = 2 * p.area ∧ p.turn 1 + p.turn 3 = 2 * p.area) ∧
    (∀ n m : ℕ, 0 < n → 0 < m → ∃ mesh, (Shape.plane p).mesh (some n) m = .ok mesh ∧
      (∀ normal ∈ mesh.normals, normal = p.normal) ∧ (mesh.Outward ↔ p.Unfolded n m)) ∧
    (∀ m, (Shape.plane p).mesh none m = (Shape.plane p).mesh (some 1) m) ∧
    ((∀ n m : ℕ, 0 < n → 0 < m → p.Unfolded n m) ↔
      (0 < p.turn 1 ∧ 0 < p.turn 3) ∧ 0 ≤ p.turn 0 ∧ 0 ≤ p.turn 2) := by
  obtain ⟨harea, hsum⟩ := normalSum_dot_normal h
  obtain ⟨hfirst, hsecond⟩ := p.turn_add_turn
  refine ⟨⟨harea, hfirst.trans hsum, hsecond.trans hsum⟩, fun n m hn hm => ?_,
    fun m => Shape.mesh_none rfl m, unfolded_forall_iff⟩
  obtain ⟨mesh, hmesh, hgridded⟩ := p.exists_gridded hn hm
  refine ⟨mesh, hmesh, fun normal hnormal => ?_, outward_iff hgridded hn hm⟩
  obtain ⟨-, -, -, -, hnormal⟩ := hgridded.normals.exists_of_mem hnormal
  exact hnormal.symm

/-! ## A patch that folds -/

/-- Corners at one height that run counter-clockwise are accepted. -/
lemma ofCorners_of_level (hlevel : ∀ corner ∈ p.corners.toList, corner.z = 0)
    (hup : p.normal = ⟨0, 0, 1⟩) (harea : p.corners.normalSum.z = 2 * p.area) (hpos : 0 < p.area)
    (hle : tol ≤ 2 * p.area) (htol : 0 ≤ tol) : Plane.ofCorners p.corners tol = .ok p := by
  simp only [Quad.toList, List.forall_mem_cons, List.not_mem_nil, false_imp_iff, implies_true,
    and_true] at hlevel
  obtain ⟨hfirst, hsecond, hthird, hfourth⟩ := hlevel
  have hnormal : p.corners.normalSum = ⟨0, 0, 2 * p.area⟩ := by
    rw [← harea]
    simp only [Quad.normalSum, List.foldl_cons, List.foldl_nil, Point.add, Point.cross, hfirst,
      hsecond, hthird, hfourth, mul_zero, zero_mul, sub_zero, add_zero]
  have hmag : p.corners.normalSum.mag = 2 * p.area := by
    rw [hnormal, Point.mag, Point.dot, elementary_sqrt]
    simp only [mul_zero, zero_add]
    exact Real.sqrt_mul_self (by positivity)
  have hunit : 2 * p.area ≠ 0 := by positivity
  refine ofCorners_eq_ok_iff.mpr ⟨rfl, ?_, ⟨1 / (2 * p.area), ?_, ?_⟩, fun corner hcorner => ?_, ?_⟩
  · rw [hmag]
    exact not_lt.mpr hle
  · rw [hmag]
    exact quotient_of_ne _ hunit
  · rw [hup, hnormal, Point.scale, zero_mul, mul_one_div_cancel hunit]
  · have hflat : (corner.sub p.corners.first).dot p.normal = 0 := by
      simp only [List.mem_cons, List.not_mem_nil, or_false] at hcorner
      rcases hcorner with rfl | rfl | rfl <;>
        simp [Point.sub, Point.dot, hup, hfirst, hsecond, hthird, hfourth]
    rw [hflat, elementary_abs, abs_zero]
    exact not_lt.mpr htol
  · rw [hmag]
    ring

/-- A quadrilateral whose first corner points inwards. -/
def dart : Plane ℝ := ⟨⟨⟨1, 1, 0⟩, ⟨0, 4, 0⟩, ⟨0, 0, 0⟩, ⟨4, 0, 0⟩⟩, ⟨0, 0, 1⟩, 4⟩

/-- The same quadrilateral from its last corner on, so that the second points inwards. -/
def turnedDart : Plane ℝ := ⟨⟨⟨4, 0, 0⟩, ⟨1, 1, 0⟩, ⟨0, 4, 0⟩, ⟨0, 0, 0⟩⟩, ⟨0, 0, 1⟩, 4⟩

lemma coincidentTol_le_dart : (coincidentTol : ℝ) ≤ 2 * 4 := by
  rw [coincidentTol_eq]
  norm_num

lemma ofCorners_dart : Plane.ofCorners dart.corners coincidentTol = .ok dart := by
  refine ofCorners_of_level ?_ rfl ?_ four_pos coincidentTol_le_dart coincidentTol_pos.le
  · simp [dart, Quad.toList]
  · norm_num [dart, Quad.normalSum, Point.add, Point.cross]

lemma ofCorners_turnedDart : Plane.ofCorners turnedDart.corners coincidentTol = .ok turnedDart := by
  refine ofCorners_of_level ?_ rfl ?_ four_pos coincidentTol_le_dart coincidentTol_pos.le
  · simp [turnedDart, Quad.toList]
  · norm_num [turnedDart, Quad.normalSum, Point.add, Point.cross]

lemma turn_dart : dart.turn 0 = -8 ∧ dart.turn 1 = 4 ∧ dart.turn 2 = 16 ∧ dart.turn 3 = 4 := by
  norm_num [dart, turn_first, turn_second, turn_third, turn_fourth, Point.sub, Point.cross, Point.dot]

/-- A dart is laid out well in one cell, but two cells fold it at the corner that points inwards. -/
theorem mesh_outward_iff_dart :
    Plane.ofCorners dart.corners coincidentTol = .ok dart ∧
    (∃ mesh, (Shape.plane dart).mesh (some 1) 1 = .ok mesh ∧ mesh.Outward) ∧
    ∃ mesh, (Shape.plane dart).mesh (some 2) 1 = .ok mesh ∧ ¬ mesh.Outward := by
  obtain ⟨-, hmesh, -, -⟩ := mesh_outward_iff ofCorners_dart
  obtain ⟨hfirst, hsecond, hthird, hfourth⟩ := turn_dart
  obtain ⟨mesh, hone, -, hiff⟩ := hmesh 1 1 one_pos one_pos
  obtain ⟨mesh', htwo, -, hiff'⟩ := hmesh 2 1 two_pos one_pos
  refine ⟨ofCorners_dart, ⟨mesh, hone, hiff.mpr ?_⟩, mesh', htwo, fun hout => ?_⟩
  · constructor <;> norm_num [hfirst, hsecond, hthird, hfourth]
  · have hfold := (hiff'.mp hout).first_along
    norm_num [hfirst, hsecond] at hfold

/-- **A patch that is accepted and whose own mesh has a triangle upside down**: its second corner
points inwards. -/
theorem turnedDart_folds :
    Plane.ofCorners turnedDart.corners coincidentTol = .ok turnedDart ∧
    ∃ mesh, (Shape.plane turnedDart).mesh none 1 = .ok mesh ∧ (0, 1, 3) ∈ mesh.faces ∧
      (mesh.vertices[0]? = some ⟨4, 0, 0⟩ ∧ mesh.vertices[1]? = some ⟨1, 1, 0⟩ ∧
        mesh.vertices[3]? = some ⟨0, 4, 0⟩) ∧
      (Point.facing ⟨4, 0, 0⟩ ⟨1, 1, 0⟩ ⟨0, 4, 0⟩).dot turnedDart.normal < 0 := by
  obtain ⟨mesh, hmesh, hgridded⟩ := turnedDart.exists_gridded one_pos one_pos
  obtain ⟨hfirst, hsecond, hthird, -⟩ := hgridded.corners one_pos one_pos
  have hown : (Shape.plane turnedDart).divisions = .ok 1 := rfl
  refine ⟨ofCorners_turnedDart, mesh, (Shape.mesh_none hown 1).trans hmesh, ?_,
    ⟨hfirst, hsecond, hthird⟩, ?_⟩
  · rw [hgridded.faces]
    decide
  · norm_num [turnedDart, Point.facing, Point.sub, Point.cross, Point.dot]

end Plane

/-! ## Walls -/

namespace Line

variable {l : Line ℝ} {zTop zBottom tol : ℝ} {p : Plane ℝ} {n m : ℕ}

/-- The boundary of a wall turns by the same at every corner. -/
lemma turn_wall (h : Plane.ofCorners (l.wall zTop zBottom) tol = .ok p) (k : Fin 4) :
    p.turn k = p.area := by
  obtain ⟨-, hcorners, -⟩ := Plane.ofCorners_eq_ok h
  obtain ⟨-, hsum⟩ := Plane.normalSum_dot_normal h
  obtain ⟨hfirst, hsecond⟩ := p.turn_add_turn
  have hopposite : p.turn 0 = p.turn 2 := by
    simp only [Plane.turn_first, Plane.turn_third, hcorners, wall, Point.withZ, Point.sub, Point.cross,
      Point.dot]
    ring
  have hopposite' : p.turn 1 = p.turn 3 := by
    simp only [Plane.turn_second, Plane.turn_fourth, hcorners, wall, Point.withZ, Point.sub,
      Point.cross, Point.dot]
    ring
  fin_cases k <;> simp only [Fin.zero_eta, Fin.mk_one, Fin.reduceFinMk] <;> linarith

/-- Walls never fold. -/
lemma unfolded_wall (h : Plane.ofCorners (l.wall zTop zBottom) tol = .ok p) (hn : 0 < n)
    (hm : 0 < m) : p.Unfolded n m := by
  obtain ⟨harea, -⟩ := Plane.normalSum_dot_normal h
  have hpos : ∀ k, 0 < p.turn k := fun k => (turn_wall h k).symm ▸ harea
  exact Plane.unfolded_forall_iff.mpr ⟨⟨hpos 1, hpos 3⟩, (hpos 0).le, (hpos 2).le⟩ n m hn hm

/-- **The meshes of a wall face along its normal**, whatever the line, the heights and the divisions. -/
theorem wall_outward (h : Plane.ofCorners (l.wall zTop zBottom) tol = .ok p) (hn : 0 < n)
    (hm : 0 < m) : ∃ mesh, (Shape.plane p).mesh (some n) m = .ok mesh ∧ mesh.Outward := by
  obtain ⟨mesh, hmesh, hgridded⟩ := p.exists_gridded hn hm
  exact ⟨mesh, hmesh, (Plane.outward_iff hgridded hn hm).mpr (unfolded_wall h hn hm)⟩

end Line

end Contour
