import Contour.Proofs.Division
import Contour.Proofs.Grid
import Contour.Proofs.Patches

/-!
# Dividing a patch into triangles

A mesh is the patch itself at the corners of a grid over its two ranges.  The file says when there is
one, which number of a range belongs to which corner, and that the triangles between the corners fit
together.  It holds for every type of numbers whose divisions of a range begin and end with it.

* `Grid.tabulate_getElem?` — the values of a function over a grid are numbered like its corners.
* `Grid.Spans` — numbers that lead from one end of a range to the other; `Grid.spans_samples`.
* `Shape.Tessellated`, `Shape.mesh_tessellated` — a mesh and its shape.
* `Shape.mesh_strays` — ranges so long that no number is their length, and what becomes of a mesh.
-/

namespace Contour

/-! ## Values over a grid -/

namespace Grid

section Tabulate

variable {α β : Type} {us vs : List α}

/-- The pairs over a grid are numbered like its corners. -/
lemma getElem?_pairs {i j : ℕ} {u v : α} (hu : us[i]? = some u) (hv : vs[j]? = some v) :
    (vs.flatMap fun v => us.map fun u => (u, v))[j * us.length + i]? = some (u, v) := by
  have hi : i < us.length := (List.getElem?_eq_some_iff.mp hu).1
  induction vs generalizing j with
  | nil => cases hv
  | cons w rest ih =>
      rw [List.flatMap_cons]
      cases j with
      | zero =>
          obtain rfl : w = v := Option.some.inj hv
          rw [Nat.zero_mul, Nat.zero_add, List.getElem?_append_left (by simpa using hi),
            List.getElem?_map, hu]
          rfl
      | succ j =>
          have hplace : (j + 1) * us.length + i = us.length + (j * us.length + i) := by ring
          rw [hplace, List.getElem?_append_right (by simp), List.length_map, Nat.add_sub_cancel_left]
          exact ih hv

variable {f : α → α → Except (Fault α) β}

lemma tabulate_getElem? {items : List β} (h : tabulate us vs f = .ok items) :
    items.length = us.length * vs.length ∧ ∀ (i j : ℕ) u v, us[i]? = some u → vs[j]? = some v →
      ∃ b, f u v = .ok b ∧ items[j * us.length + i]? = some b := by
  obtain ⟨hlength, hat⟩ := mapM_getElem? h
  constructor
  · simpa [List.length_flatMap, Nat.mul_comm] using hlength
  · intro i j u v hu hv
    exact hat _ _ (getElem?_pairs hu hv)

lemma mem_pairs {uv : α × α} :
    (uv ∈ vs.flatMap fun v => us.map fun u => (u, v)) ↔ uv.1 ∈ us ∧ uv.2 ∈ vs := by
  simp only [List.mem_flatMap, List.mem_map]
  constructor
  · rintro ⟨v, hv, u, hu, rfl⟩
    exact ⟨hu, hv⟩
  · rintro ⟨hu, hv⟩
    exact ⟨uv.2, hv, uv.1, hu, rfl⟩

lemma tabulate_ok (h : ∀ u ∈ us, ∀ v ∈ vs, ∃ b, f u v = .ok b) :
    ∃ items, tabulate us vs f = .ok items := by
  have hpairs : ∀ uv ∈ vs.flatMap fun v => us.map fun u => (u, v),
      ∃ b, f uv.1 uv.2 = .ok b ∧ True := by
    intro uv huv
    obtain ⟨hu, hv⟩ := mem_pairs.mp huv
    obtain ⟨b, hb⟩ := h uv.1 hu uv.2 hv
    exact ⟨b, hb, trivial⟩
  obtain ⟨items, hitems, -⟩ := mapM_ok (P := fun _ _ => True) hpairs
  exact ⟨items, hitems⟩

lemma tabulate_error {e : Fault α} {u v : α}
    (hstep : ∀ u ∈ us, ∀ v ∈ vs, (∃ b, f u v = .ok b) ∨ f u v = .error e)
    (hu : u ∈ us) (hv : v ∈ vs) (hfails : f u v = .error e) : tabulate us vs f = .error e := by
  refine mapM_error (fun uv huv => ?_) ⟨(u, v), mem_pairs.mpr ⟨hu, hv⟩, hfails⟩
  obtain ⟨hu', hv'⟩ := mem_pairs.mp huv
  exact hstep _ hu' _ hv'

end Tabulate

/-! ## The numbers that divide a range -/

section Samples

variable {α : Type} [Sub α] [Div α] [BEq α] [Elementary α]

/-- The distance between neighbours when a range is divided. -/
def step (range : α × α) (n : ℕ) : α := (range.2 - range.1) / Elementary.ofInt n

/-- Numbers that lead from one end of a range to the other. -/
structure Spans (range : α × α) (n : ℕ) (us : List α) : Prop where
  length : us.length = n + 1
  /-- The first number is the beginning of the range, up to the sign of a zero. -/
  first : Elementary.isInfinite (step range n) = false → Elementary.isNaN (step range n) = false →
    ∃ u, us[0]? = some u ∧ (u = range.1 ∨ (u == range.1) = true)
  last : us[n]? = some range.2

lemma spans_samples [Dividing α] [LawfulDividing α] (range : α × α) {n : ℕ} (hn : 0 < n) :
    Spans range n (samples range n) where
  length := LawfulDividing.length_divide range.1 range.2 hn
  first := LawfulDividing.divide_zero range.1 range.2 hn
  last := LawfulDividing.divide_last range.1 range.2 hn

end Samples

end Grid

/-! ## Meshes of shapes -/

namespace Shape

variable {α : Type} [Add α] [Sub α] [Mul α] [Div α] [OfNat α 0] [OfNat α 1] [OfScientific α]
  [Elementary α] [Dividing α] {s : Shape α} {n m : ℕ}

/-- Counts of at least one are not refused. -/
lemma mesh_eq (hn : 0 < n) (hm : 0 < m) : s.mesh (some n) m = (do
    let vertices ← Grid.tabulate (Grid.samples s.uRange n) (Grid.samples s.vRange m) s.evaluate
    let normals ← Grid.tabulate (Grid.samples s.uRange n) (Grid.samples s.vRange m) s.normalAt
    return ⟨vertices, normals, Grid.faces n m⟩) := by
  have hchecked : ¬ (decide ((n : ℤ) < 1) || decide ((m : ℤ) < 1)) = true := by
    rw [Bool.or_eq_true, decide_eq_true_iff, decide_eq_true_iff]
    omega
  exact if_neg hchecked

variable [BEq α]

/-- The points and normals of a shape over a grid, with triangles that fit together. The corner in
column `i` and row `j` has the number `j * (n + 1) + i`. -/
structure Tessellated (s : Shape α) (n m : ℕ) (mesh : Mesh α) : Prop where
  columns : Grid.Spans s.uRange n (Grid.samples s.uRange n)
  rows : Grid.Spans s.vRange m (Grid.samples s.vRange m)
  vertices_length : mesh.vertices.length = (n + 1) * (m + 1)
  normals_length : mesh.normals.length = (n + 1) * (m + 1)
  corners : ∀ (i j : ℕ) u v,
    (Grid.samples s.uRange n)[i]? = some u → (Grid.samples s.vRange m)[j]? = some v → ∃ p q,
      s.evaluate u v = .ok p ∧ mesh.vertices[j * (n + 1) + i]? = some p
        ∧ s.normalAt u v = .ok q ∧ mesh.normals[j * (n + 1) + i]? = some q
  manifold : Grid.Manifold n m mesh.faces

lemma mesh_of_points [LawfulDividing α] (hn : 0 < n) (hm : 0 < m)
    (hpoints : ∀ u ∈ Grid.samples s.uRange n, s.HasPointsAt u) :
    ∃ mesh, s.mesh (some n) m = .ok mesh ∧ s.Tessellated n m mesh := by
  have hcolumns := Grid.spans_samples s.uRange hn
  have hrows := Grid.spans_samples s.vRange hm
  obtain ⟨vertices, hvertices⟩ := Grid.tabulate_ok (f := s.evaluate)
    fun u hu v (_ : v ∈ Grid.samples s.vRange m) => (evaluate_ok (hpoints u hu) v).1
  obtain ⟨normals, hnormals⟩ := Grid.tabulate_ok (f := s.normalAt)
    fun u hu v (_ : v ∈ Grid.samples s.vRange m) => (evaluate_ok (hpoints u hu) v).2
  rw [mesh_eq hn hm, hvertices, hnormals]
  obtain ⟨hvlength, hvat⟩ := Grid.tabulate_getElem? hvertices
  obtain ⟨hnlength, hnat⟩ := Grid.tabulate_getElem? hnormals
  rw [hcolumns.length, hrows.length] at hvlength hnlength
  rw [hcolumns.length] at hvat hnat
  refine ⟨_, rfl, hcolumns, hrows, hvlength, hnlength, ?_, Grid.manifold_faces hn hm⟩
  intro i j u v hu hv
  obtain ⟨p, hp, hpat⟩ := hvat i j u v hu hv
  obtain ⟨q, hq, hqat⟩ := hnat i j u v hu hv
  exact ⟨p, q, hp, hpat, hq, hqat⟩

lemma mesh_of_no_point [LawfulDividing α] (hn : 0 < n) (hm : 0 < m)
    (hnone : ∃ u ∈ Grid.samples s.uRange n, ¬ s.HasPointsAt u) :
    s.mesh (some n) m = .error (.badValue .outsideDomain) := by
  obtain ⟨u, hu, hnone⟩ := hnone
  obtain ⟨v, hv⟩ : ∃ v, v ∈ Grid.samples s.vRange m :=
    ⟨_, List.mem_of_getElem? (Grid.spans_samples s.vRange hm).last⟩
  have hstep : ∀ u ∈ Grid.samples s.uRange n, ∀ v ∈ Grid.samples s.vRange m,
      (∃ p, s.evaluate u v = .ok p) ∨ s.evaluate u v = .error (.badValue .outsideDomain) := by
    intro u _ v _
    by_cases h : s.HasPointsAt u
    · exact .inl (evaluate_ok h v).1
    · exact .inr (evaluate_error h v)
  rw [mesh_eq hn hm, Grid.tabulate_error hstep hu hv (evaluate_error hnone v)]
  rfl

/-- **A patch divided into cells.** A mesh fails only where the shape has no points, and it is the
shape itself at the corners of a grid, with triangles that fit together. -/
theorem mesh_tessellated [LawfulDividing α] (s : Shape α) (hn : 0 < n) (hm : 0 < m) :
    ((∀ u ∈ Grid.samples s.uRange n, s.HasPointsAt u) →
      ∃ mesh, s.mesh (some n) m = .ok mesh ∧ s.Tessellated n m mesh)
    ∧ ((∃ u ∈ Grid.samples s.uRange n, ¬ s.HasPointsAt u) →
      s.mesh (some n) m = .error (.badValue .outsideDomain)) :=
  ⟨mesh_of_points hn hm, mesh_of_no_point hn hm⟩

/-- Three quarters of a round tower. -/
def tower : Cylinder Float := ⟨⟨1, 2, 0⟩, 3, 0, 4.75, 0, 5⟩

/-- A cylinder whose angles are so far apart that no double holds the difference. -/
def endless : Cylinder Float := ⟨⟨1, 2, 0⟩, 3, -1e308, 1e308, 0, 5⟩

/-- Three by two cells of a tower have a mesh that begins at its lower end; two cells of a cylinder
without end have none. -/
theorem mesh_tessellated_tower :
    (∃ mesh v, (cylinder tower).mesh (some 3) 2 = .ok mesh ∧ (cylinder tower).Tessellated 3 2 mesh
        ∧ (Grid.samples (cylinder tower).vRange 2)[0]? = some v ∧ (v == tower.bottom) = true)
      ∧ (cylinder endless).mesh (some 2) 1 = .error (.badValue .outsideDomain) := by
  have htower : ∀ u ∈ Grid.samples (cylinder tower).uRange 3, (cylinder tower).HasPointsAt u := by
    decide +kernel
  have hendless : ∃ u ∈ Grid.samples (cylinder endless).uRange 2,
      ¬ (cylinder endless).HasPointsAt u := by
    decide +kernel
  obtain ⟨mesh, hmesh, htessellated⟩ :=
    (mesh_tessellated (cylinder tower) three_pos two_pos).1 htower
  obtain ⟨v, hv, hbottom⟩ := htessellated.rows.first (by decide +kernel) (by decide +kernel)
  have hequal : (v == tower.bottom) = true := by
    rcases hbottom with rfl | hbottom
    · decide +kernel
    · exact hbottom
  exact ⟨⟨mesh, v, hmesh, htessellated, hv, hequal⟩,
    (mesh_tessellated (cylinder endless) two_pos one_pos).2 hendless⟩

/-- A cylinder whose heights are so far apart that no double holds the difference. -/
def tall : Cylinder Float := ⟨⟨0, 0, 0⟩, 1, 0, 1, -1e308, 1e308⟩

/-- **Ranges without a length.** Both cylinders are accepted.  The first is divided into one cell, but
the step between its heights is infinite, so the first height is no number and the first row does not
lie at the lower end; the second has an infinite angle between its ends and no mesh at all. -/
theorem mesh_strays :
    (Cylinder.ofRanges tall.center tall.radius tall.startAngle tall.endAngle tall.bottom tall.top
        = .ok tall
      ∧ ∃ mesh p, (cylinder tall).mesh (some 1) 1 = .ok mesh ∧ mesh.vertices[0]? = some p
        ∧ (p.z == tall.bottom) = false)
    ∧ Cylinder.ofRanges endless.center endless.radius endless.startAngle endless.endAngle
        endless.bottom endless.top = .ok endless
      ∧ (cylinder endless).mesh (some 2) 1 = .error (.badValue .outsideDomain) := by
  have htall : ∀ u ∈ Grid.samples (cylinder tall).uRange 1, (cylinder tall).HasPointsAt u := by
    decide +kernel
  have hendless : ∃ u ∈ Grid.samples (cylinder endless).uRange 2,
      ¬ (cylinder endless).HasPointsAt u := by
    decide +kernel
  refine ⟨⟨?_, ?_⟩, ?_, mesh_of_no_point two_pos one_pos hendless⟩
  · exact Cylinder.ofRanges_ok (by decide +kernel) (by decide +kernel) (by decide +kernel)
  · obtain ⟨mesh, hmesh, htessellated⟩ := mesh_of_points one_pos one_pos htall
    obtain ⟨v, hv, hstray⟩ : ∃ v, (Grid.samples (cylinder tall).vRange 1)[0]? = some v ∧
        (v == tall.bottom) = false := ⟨_, rfl, by decide +kernel⟩
    obtain ⟨u, hu⟩ : ∃ u, (Grid.samples (cylinder tall).uRange 1)[0]? = some u := ⟨_, rfl⟩
    obtain ⟨p, q, hp, hat, -⟩ := htessellated.corners 0 0 u v hu hv
    refine ⟨mesh, p, hmesh, hat, ?_⟩
    rw [Cylinder.height_of_evaluate hp]
    exact hstray
  · exact Cylinder.ofRanges_ok (by decide +kernel) (by decide +kernel) (by decide +kernel)

end Shape

end Contour
