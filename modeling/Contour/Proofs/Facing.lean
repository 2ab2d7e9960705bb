import Contour.Proofs.Sweep
import Contour.Proofs.Tessellation

/-!
# Which way the triangles of a mesh face

A triangle faces the side from which it runs counter-clockwise.  The triangles of a mesh should face
where its normals point, at each of their corners.  Over the real numbers this is a question about the
two triangles of each cell, and the file answers it for cylinders: all depends on the sine of the angle
between neighbouring columns, which is positive as long as that angle is below half a turn.

* `Mesh.Outward` — every triangle faces where the normals at its corners point.
* `Grid.Numbered`, `Mesh.Over`, `Shape.mesh_over` — a mesh of points and normals over a grid;
  `Mesh.Over.outward_iff` looks at its cells one by one.
* `Cylinder.outward_iff` — cylinders whose triangles face outward.
* `Cylinder.Meshed`, `Cylinder.mesh_outward` — the mesh of a cylinder lies on it and faces outward.
-/

namespace Contour

/-! ## Triangles and normals -/

/-- The vector product of two sides of a triangle. It points to the side from which the triangle runs
counter-clockwise. -/
def Point.facing (p q r : Point ℝ) : Point ℝ := (q.sub p).cross (r.sub p)

namespace Mesh

variable {mesh : Mesh ℝ} {f : ℕ × ℕ × ℕ} {p q r a b c : Point ℝ}

/-- A triangle faces the side to which the normals at its corners point. -/
def FacesOut (mesh : Mesh ℝ) (f : ℕ × ℕ × ℕ) : Prop :=
  ∃ p q r, mesh.vertices[f.1]? = some p ∧ mesh.vertices[f.2.1]? = some q ∧
    mesh.vertices[f.2.2]? = some r ∧
    ∀ k ∈ Grid.vertices f, ∃ normal, mesh.normals[k]? = some normal ∧
      0 < (Point.facing p q r).dot normal

def Outward (mesh : Mesh ℝ) : Prop := ∀ f ∈ mesh.faces, mesh.FacesOut f

lemma facesOut_iff (hp : mesh.vertices[f.1]? = some p) (hq : mesh.vertices[f.2.1]? = some q)
    (hr : mesh.vertices[f.2.2]? = some r) (ha : mesh.normals[f.1]? = some a)
    (hb : mesh.normals[f.2.1]? = some b) (hc : mesh.normals[f.2.2]? = some c) :
    mesh.FacesOut f ↔ ∀ normal ∈ [a, b, c], 0 < (Point.facing p q r).dot normal := by
  simp [FacesOut, Grid.vertices, hp, hq, hr, ha, hb, hc]

end Mesh

/-! ## Meshes over a grid -/

namespace Grid

variable {n m i j : ℕ}

/-- A list whose items are numbered like the corners of a grid. -/
structure Numbered {β : Type} (n m : ℕ) (value : ℕ → ℕ → β) (items : List β) : Prop where
  length : items.length = (n + 1) * (m + 1)
  at_corner : ∀ i ≤ n, ∀ j ≤ m, items[corner n i j]? = some (value i j)

lemma Numbered.exists_of_mem {β : Type} {value : ℕ → ℕ → β} {items : List β} {item : β}
    (h : Numbered n m value items) (hitem : item ∈ items) : ∃ i ≤ n, ∃ j ≤ m, value i j = item := by
  obtain ⟨k, hk⟩ := List.mem_iff_getElem?.mp hitem
  have hlt := (List.getElem?_eq_some_iff.mp hk).1
  rw [h.length] at hlt
  obtain ⟨i, hi, j, hj, rfl⟩ := exists_corner hlt
  rw [h.at_corner i hi j hj] at hk
  exact ⟨i, hi, j, hj, Option.some.inj hk⟩

end Grid

/-- A mesh of points and normals over a grid. -/
structure Mesh.Over (mesh : Mesh ℝ) (n m : ℕ) (point normal : ℕ → ℕ → Point ℝ) : Prop where
  vertices : Grid.Numbered n m point mesh.vertices
  normals : Grid.Numbered n m normal mesh.normals
  faces : mesh.faces = Grid.faces n m

namespace Mesh.Over

variable {mesh : Mesh ℝ} {n m : ℕ} {point normal : ℕ → ℕ → Point ℝ}

/-- Whether a mesh faces outward is seen at the two triangles of each cell. -/
lemma outward_iff (h : mesh.Over n m point normal) : mesh.Outward ↔ ∀ i < n, ∀ j < m,
    (∀ k ∈ [normal i j, normal (i + 1) j, normal (i + 1) (j + 1)],
      0 < (Point.facing (point i j) (point (i + 1) j) (point (i + 1) (j + 1))).dot k) ∧
    (∀ k ∈ [normal i j, normal (i + 1) (j + 1), normal i (j + 1)],
      0 < (Point.facing (point i j) (point (i + 1) (j + 1)) (point i (j + 1))).dot k) := by
  rw [Outward, h.faces, Grid.forall_faces]
  refine forall₂_congr fun i hi => forall₂_congr fun j hj => ?_
  rw [Grid.below_corner, Grid.above_corner]
  obtain ⟨-, hpoint⟩ := h.vertices
  obtain ⟨-, hnormal⟩ := h.normals
  exact and_congr
    (facesOut_iff (hpoint i hi.le j hj.le) (hpoint _ hi j hj.le) (hpoint _ hi _ hj)
      (hnormal i hi.le j hj.le) (hnormal _ hi j hj.le) (hnormal _ hi _ hj))
    (facesOut_iff (hpoint i hi.le j hj.le) (hpoint _ hi _ hj) (hpoint i hi.le _ hj)
      (hnormal i hi.le j hj.le) (hnormal _ hi _ hj) (hnormal i hi.le _ hj))

end Mesh.Over

namespace Shape

lemma faces_of_mesh {α : Type} [Add α] [Sub α] [Mul α] [Div α] [OfNat α 0] [OfNat α 1]
    [OfScientific α] [Elementary α] [Dividing α] {s : Shape α} {n m : ℕ} {mesh : Mesh α} (hn : 0 < n) (hm : 0 < m)
    (h : s.mesh (some n) m = .ok mesh) : mesh.faces = Grid.faces n m := by
  rw [mesh_eq hn hm] at h
  cases hvertices : Grid.tabulate (Grid.samples s.uRange n) (Grid.samples s.vRange m) s.evaluate with
  | error fault =>
      rw [hvertices] at h
      cases h
  | ok vertices =>
      rw [hvertices] at h
      cases hnormals : Grid.tabulate (Grid.samples s.uRange n) (Grid.samples s.vRange m)
          s.normalAt with
      | error fault =>
          rw [hnormals] at h
          cases h
      | ok normals =>
          rw [hnormals] at h
          cases h
          rfl

variable {s : Shape ℝ} {n m : ℕ} {point normal : ℝ → ℝ → Point ℝ}

/-- Over the real numbers there is a mesh over every grid. -/
lemma mesh_over (hn : 0 < n) (hm : 0 < m) (hpoint : ∀ u v, s.evaluate u v = .ok (point u v))
    (hnormal : ∀ u v, s.normalAt u v = .ok (normal u v)) :
    ∃ mesh, s.mesh (some n) m = .ok mesh ∧
      mesh.Over n m (fun i j => point (Grid.node s.uRange n i) (Grid.node s.vRange m j))
        (fun i j => normal (Grid.node s.uRange n i) (Grid.node s.vRange m j)) := by
  obtain ⟨mesh, hmesh, htessellated⟩ := mesh_of_points (s := s) hn hm fun _ _ => .inr rfl
  have hcorner : ∀ i ≤ n, ∀ j ≤ m,
      mesh.vertices[Grid.corner n i j]?
          = some (point (Grid.node s.uRange n i) (Grid.node s.vRange m j)) ∧
        mesh.normals[Grid.corner n i j]?
          = some (normal (Grid.node s.uRange n i) (Grid.node s.vRange m j)) := by
    intro i hi j hj
    obtain ⟨p, q, hp, hvertex, hq, hnormalAt⟩ := htessellated.corners i j _ _
      (Grid.samples_getElem? s.uRange hi) (Grid.samples_getElem? s.vRange hj)
    obtain rfl := Except.ok.inj ((hpoint _ _).symm.trans hp)
    obtain rfl := Except.ok.inj ((hnormal _ _).symm.trans hq)
    exact ⟨hvertex, hnormalAt⟩
  exact ⟨mesh, hmesh, ⟨htessellated.vertices_length, fun i hi j hj => (hcorner i hi j hj).1⟩,
    ⟨htessellated.normals_length, fun i hi j hj => (hcorner i hi j hj).2⟩,
    faces_of_mesh hn hm hmesh⟩

/-- Divisions that are not given are those that the shape has of its own. -/
lemma mesh_none {α : Type} [Add α] [Sub α] [Mul α] [Div α] [OfNat α 0] [OfNat α 1]
    [OfScientific α] [Elementary α] [Dividing α] {s : Shape α} {k : ℤ} (h : s.divisions = .ok k) (m : ℤ) :
    s.mesh none m = s.mesh (some k) m := by
  rw [mesh, mesh, h]

end Shape

/-! ## Cylinders -/

namespace Cylinder

variable {c : Cylinder ℝ}

/-- The point of a cylinder at an angle and a height. -/
noncomputable def pointAt (c : Cylinder ℝ) (u v : ℝ) : Point ℝ := (c.center.around c.radius u).withZ v

/-- The unit vector away from the axis at an angle. -/
noncomputable def outwardAt (u : ℝ) : Point ℝ := ⟨Real.cos u, Real.sin u, 0⟩

lemma dist_axis (hradius : 0 ≤ c.radius) (u v : ℝ) :
    (c.pointAt u v).dist (c.center.withZ v) = c.radius := by
  rw [Point.dist_eq_iff hradius]
  simp only [pointAt, Point.around, Point.withZ]
  linear_combination c.radius ^ 2 * Real.sin_sq_add_cos_sq u

/-- A triangle between two columns faces an angle as far as the chord between the columns does. -/
lemma facing_below (c : Cylinder ℝ) (u u' v v' w : ℝ) :
    (Point.facing (c.pointAt u v) (c.pointAt u' v) (c.pointAt u' v')).dot (outwardAt w)
      = c.radius * (v' - v) * (Real.sin (u' - w) + Real.sin (w - u)) := by
  simp only [Point.facing, pointAt, outwardAt, Point.around, Point.withZ, Point.sub, Point.cross,
    Point.dot, Real.sin_sub]
  ring

lemma facing_above (c : Cylinder ℝ) (u u' v v' w : ℝ) :
    (Point.facing (c.pointAt u v) (c.pointAt u' v') (c.pointAt u v')).dot (outwardAt w)
      = c.radius * (v' - v) * (Real.sin (u' - w) + Real.sin (w - u)) := by
  simp only [Point.facing, pointAt, outwardAt, Point.around, Point.withZ, Point.sub, Point.cross,
    Point.dot, Real.sin_sub]
  ring

section Over

variable {n m : ℕ} {mesh : Mesh ℝ}

/-- The mesh over `n` by `m` cells between the ranges of a cylinder. -/
def Gridded (c : Cylinder ℝ) (n m : ℕ) (mesh : Mesh ℝ) : Prop :=
  mesh.Over n m
    (fun i j => c.pointAt (Grid.node (c.startAngle, c.endAngle) n i) (Grid.node (c.bottom, c.top) m j))
    (fun i _ => outwardAt (Grid.node (c.startAngle, c.endAngle) n i))

lemma exists_gridded (c : Cylinder ℝ) (hn : 0 < n) (hm : 0 < m) :
    ∃ mesh, (Shape.cylinder c).mesh (some n) m = .ok mesh ∧ c.Gridded n m mesh := by
  have hpoint : ∀ u v, (Shape.cylinder c).evaluate u v = .ok (c.pointAt u v) := fun _ _ => rfl
  have hnormal : ∀ u v, (Shape.cylinder c).normalAt u v = .ok (outwardAt u) := fun _ _ => rfl
  exact Shape.mesh_over hn hm hpoint hnormal

/-- **A cylinder faces outward iff the angle between its columns has a positive sine**, that is, in its
first turn, iff it is below half a turn. -/
lemma outward_iff (h : c.Gridded n m mesh) (hn : 0 < n) (hm : 0 < m) (hradius : 0 < c.radius)
    (hheights : c.bottom < c.top) :
    mesh.Outward ↔ 0 < Real.sin ((c.endAngle - c.startAngle) / n) := by
  have hrow : 0 < (c.top - c.bottom) / m := div_pos (sub_pos.mpr hheights) (Nat.cast_pos.mpr hm)
  -- both triangles of a cell face both of its columns by the same amount
  have hcell : ∀ i j w, w = Grid.node (c.startAngle, c.endAngle) n i ∨
      w = Grid.node (c.startAngle, c.endAngle) n (i + 1) →
      c.radius * (Grid.node (c.bottom, c.top) m (j + 1) - Grid.node (c.bottom, c.top) m j)
          * (Real.sin (Grid.node (c.startAngle, c.endAngle) n (i + 1) - w)
            + Real.sin (w - Grid.node (c.startAngle, c.endAngle) n i))
        = c.radius * ((c.top - c.bottom) / m) * Real.sin ((c.endAngle - c.startAngle) / n) := by
    rintro i j w (rfl | rfl)
    · rw [Grid.node_succ_sub, Grid.node_succ_sub, sub_self, Real.sin_zero, add_zero]
    · rw [Grid.node_succ_sub, Grid.node_succ_sub, sub_self, Real.sin_zero, zero_add]
  have hsign : 0 < c.radius * ((c.top - c.bottom) / m) * Real.sin ((c.endAngle - c.startAngle) / n) ↔
      0 < Real.sin ((c.endAngle - c.startAngle) / n) := mul_pos_iff_of_pos_left (mul_pos hradius hrow)
  rw [h.outward_iff, ← hsign]
  constructor
  · intro hout
    have hfirst := (hout 0 hn 0 hm).1 _ List.mem_cons_self
    rwa [facing_below, hcell 0 0 _ (.inl rfl)] at hfirst
  · intro hpos i _ j _
    simp only [List.forall_mem_cons, List.not_mem_nil, false_imp_iff, implies_true, and_true,
      facing_below, facing_above]
    rw [hcell i j _ (.inl rfl), hcell i j _ (.inr rfl)]
    exact ⟨⟨hpos, hpos, hpos⟩, hpos, hpos, hpos⟩

/-- A mesh on a cylinder: its vertices lie on the surface between the two heights, the corners of the
grid are the ends of the ranges, and the triangles face outward. -/
structure Meshed (c : Cylinder ℝ) (n m : ℕ) (mesh : Mesh ℝ) : Prop where
  vertices_length : mesh.vertices.length = (n + 1) * (m + 1)
  on_surface : ∀ p ∈ mesh.vertices,
    p.dist (c.center.withZ p.z) = c.radius ∧ c.bottom ≤ p.z ∧ p.z ≤ c.top
  ends : ∀ i u, (i, u) ∈ [(0, c.startAngle), (n, c.endAngle)] →
    ∀ j v, (j, v) ∈ [(0, c.bottom), (m, c.top)] →
      ∃ p, c.evaluate u v = .ok p ∧ mesh.vertices[Grid.corner n i j]? = some p
  outward : mesh.Outward

lemma Gridded.meshed (h : c.Gridded n m mesh) (hn : 0 < n) (hm : 0 < m) (hradius : 0 < c.radius)
    (hheights : c.bottom < c.top) (hstep : 0 < Real.sin ((c.endAngle - c.startAngle) / n)) :
    c.Meshed n m mesh where
  vertices_length := h.vertices.length
  on_surface p hp := by
    obtain ⟨i, -, j, hj, rfl⟩ := h.vertices.exists_of_mem hp
    have hheight : (c.bottom, c.top).1 ≤ (c.bottom, c.top).2 := hheights.le
    exact ⟨dist_axis hradius.le _ _, Grid.node_mem hheight hj⟩
  ends i u hu j v hv := by
    have hcolumn : i ≤ n ∧ Grid.node (c.startAngle, c.endAngle) n i = u := by
      simp only [List.mem_cons, Prod.mk.injEq, List.not_mem_nil, or_false] at hu
      rcases hu with ⟨rfl, rfl⟩ | ⟨rfl, rfl⟩
      · exact ⟨Nat.zero_le n, Grid.node_zero _ n⟩
      · exact ⟨le_rfl, Grid.node_last _ hn⟩
    have hrow : j ≤ m ∧ Grid.node (c.bottom, c.top) m j = v := by
      simp only [List.mem_cons, Prod.mk.injEq, List.not_mem_nil, or_false] at hv
      rcases hv with ⟨rfl, rfl⟩ | ⟨rfl, rfl⟩
      · exact ⟨Nat.zero_le m, Grid.node_zero _ m⟩
      · exact ⟨le_rfl, Grid.node_last _ hm⟩
    obtain ⟨hi, rfl⟩ := hcolumn
    obtain ⟨hj, rfl⟩ := hrow
    exact ⟨_, rfl, h.vertices.at_corner i hi j hj⟩
  outward := (outward_iff h hn hm hradius hheights).mpr hstep

end Over

/-- **The divisions that a cylinder has of its own** are no wider than a sixteenth of a turn. -/
lemma divisions_spec (h : c.startAngle < c.endAngle) :
    ∃ n : ℕ, 0 < n ∧ c.divisions = .ok n ∧ (c.endAngle - c.startAngle) / n ≤ Real.pi / 8 := by
  have hparts : 0 < (c.endAngle - c.startAngle) / (Real.pi / 8) :=
    div_pos (sub_pos.mpr h) (by positivity)
  have hceil : 0 < ⌈(c.endAngle - c.startAngle) / (Real.pi / 8)⌉ := Int.ceil_pos.mpr hparts
  obtain ⟨n, hn⟩ := Int.eq_ofNat_of_zero_le hceil.le
  have hpos : 0 < n := by omega
  refine ⟨n, hpos, ?_, ?_⟩
  · have height : (8.0 : ℝ) = 8 := by norm_num
    show Except.ok (max 1 ⌈(c.endAngle - c.startAngle) / (Real.pi / 8.0)⌉) = _
    rw [height, hn, max_eq_right (by omega)]
  · have hle : (c.endAngle - c.startAngle) / (Real.pi / 8) ≤ n := by
      have := Int.le_ceil ((c.endAngle - c.startAngle) / (Real.pi / 8))
      rwa [hn, Int.cast_natCast] at this
    rw [div_le_iff₀ (by positivity)] at hle
    rw [div_le_iff₀ (Nat.cast_pos.mpr hpos)]
    linarith

section Accepted

variable {center : Point ℝ} {radius startAngle endAngle bottom top : ℝ} {m : ℕ}

/-- A cylinder that is accepted has a radius, a range of angles and a height. -/
lemma spans_of_ofRanges (h : Cylinder.ofRanges center radius startAngle endAngle bottom top = .ok c) :
    0 < c.radius ∧ c.startAngle < c.endAngle ∧ c.bottom < c.top := by
  obtain ⟨hradius, hangles, hheights⟩ := ofRanges_checked h
  obtain rfl := ofRanges_eq_ok h
  rw [extrusionTol_eq] at hheights
  exact ⟨not_le.mp hradius, not_le.mp hangles, by dsimp only; linarith⟩

/-- **The mesh of a cylinder lies on it and faces outward**, whenever its columns are less than half a
turn apart; so it does when the divisions are the cylinder's own. -/
theorem mesh_outward (h : Cylinder.ofRanges center radius startAngle endAngle bottom top = .ok c)
    (hm : 0 < m) :
    (∀ n : ℕ, 0 < n → (c.endAngle - c.startAngle) / n < Real.pi →
      ∃ mesh, (Shape.cylinder c).mesh (some n) m = .ok mesh ∧ c.Meshed n m mesh) ∧
    ∃ (n : ℕ) (mesh : Mesh ℝ), c.divisions = .ok n ∧ (Shape.cylinder c).mesh none m = .ok mesh ∧
      c.Meshed n m mesh := by
  obtain ⟨hradius, hangles, hheights⟩ := spans_of_ofRanges h
  have hgiven : ∀ n : ℕ, 0 < n → (c.endAngle - c.startAngle) / n < Real.pi →
      ∃ mesh, (Shape.cylinder c).mesh (some n) m = .ok mesh ∧ c.Meshed n m mesh := by
    intro n hn hstep
    have hsin : 0 < Real.sin ((c.endAngle - c.startAngle) / n) :=
      Real.sin_pos_of_pos_of_lt_pi (div_pos (sub_pos.mpr hangles) (Nat.cast_pos.mpr hn)) hstep
    obtain ⟨mesh, hmesh, hgridded⟩ := exists_gridded c hn hm
    exact ⟨mesh, hmesh, hgridded.meshed hn hm hradius hheights hsin⟩
  obtain ⟨n, hn, hdivisions, hstep⟩ := divisions_spec hangles
  obtain ⟨mesh, hmesh, hmeshed⟩ := hgiven n hn (hstep.trans_lt (by linarith [Real.pi_pos]))
  have hown : (Shape.cylinder c).divisions = .ok n := hdivisions
  exact ⟨hgiven, n, mesh, hdivisions, (Shape.mesh_none hown m).trans hmesh, hmeshed⟩

end Accepted

/-- Three columns are enough for a whole tower, and as many as it likes of its own. -/
theorem mesh_outward_three_columns :
    Cylinder.ofRanges ⟨1, 2, 0⟩ 3 0 (2 * Real.pi) 0 5 = .ok ⟨⟨1, 2, 0⟩, 3, 0, 2 * Real.pi, 0, 5⟩ ∧
    (∃ mesh, (Shape.cylinder ⟨⟨1, 2, 0⟩, 3, 0, 2 * Real.pi, 0, 5⟩).mesh (some 3) 2 = .ok mesh ∧
      Cylinder.Meshed ⟨⟨1, 2, 0⟩, 3, 0, 2 * Real.pi, 0, 5⟩ 3 2 mesh) ∧
    ∃ (n : ℕ) (mesh : Mesh ℝ),
      (Shape.cylinder ⟨⟨1, 2, 0⟩, 3, 0, 2 * Real.pi, 0, 5⟩).mesh none 2 = .ok mesh ∧
      Cylinder.Meshed ⟨⟨1, 2, 0⟩, 3, 0, 2 * Real.pi, 0, 5⟩ n 2 mesh := by
  have htower : Cylinder.ofRanges (⟨1, 2, 0⟩ : Point ℝ) 3 0 (2 * Real.pi) 0 5
      = .ok ⟨⟨1, 2, 0⟩, 3, 0, 2 * Real.pi, 0, 5⟩ :=
    ofRanges_of_lt three_pos turn_pos (by rw [extrusionTol_eq]; norm_num)
  obtain ⟨hgiven, n, mesh, -, hmesh, hmeshed⟩ := mesh_outward htower two_pos
  refine ⟨htower, hgiven 3 three_pos ?_, n, mesh, hmesh, hmeshed⟩
  dsimp only
  push_cast
  linarith [Real.pi_pos]

end Cylinder

end Contour
