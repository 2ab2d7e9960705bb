import Mathlib
import Contour.Patch.Mesh

/-!
# The surface of a grid

The triangles of a grid are written down as numbers of its corners.  This file says that they fit
together to one surface: sides are shared by two triangles, which run through them in opposite
directions, except for those along the border.  All of it follows from the differences of the numbers
at the two ends of a side, which tell every kind of side from every other.

* `Grid.corner` — the number of a corner; `corner_injective`, `corner_lt`, `exists_corner`.
* `Grid.vertices`, `Grid.arrows`, `Grid.sides` — the corners of a triangle, and what joins them.
* `Grid.degree` — how many triangles have a side; `degree_across`, `degree_upward`, `degree_diagonal`
  count them for the three kinds of sides.
* `Grid.rim` — the sides along the border; `Grid.degree_eq_one_iff` says that they are those of one
  triangle only.
* `Grid.cell`, `Grid.diagonal` — one cell; `Grid.filter_cell` finds its two triangles, and
  `Grid.forall_faces` goes through all of them.
* `Grid.Manifold` — triangles that fit together; `Grid.manifold_faces` says that those of a grid do.
-/

namespace Contour

namespace Grid

variable {n m : ℕ}

/-! ## Corners and cells -/

/-- The number of the corner in a column and a row, with `n` cells in a row. -/
def corner (n i j : ℕ) : ℕ := j * (n + 1) + i

lemma corner_right (n i j : ℕ) : corner n (i + 1) j = corner n i j + 1 := rfl

lemma corner_up (n i j : ℕ) : corner n i (j + 1) = corner n i j + (n + 1) := by
  simp only [corner]
  ring

lemma corner_injective {i i' j j' : ℕ} (hi : i ≤ n) (hi' : i' ≤ n)
    (h : corner n i j = corner n i' j') : i = i' ∧ j = j' := by
  simp only [corner] at h
  have hcolumn : i = i' := by
    have hmod := congrArg (· % (n + 1)) h
    simpa only [Nat.mul_add_mod', Nat.mod_eq_of_lt (Nat.lt_succ_of_le hi),
      Nat.mod_eq_of_lt (Nat.lt_succ_of_le hi')] using hmod
  have hrow : j * (n + 1) = j' * (n + 1) := by omega
  exact ⟨hcolumn, Nat.eq_of_mul_eq_mul_right (Nat.succ_pos n) hrow⟩

lemma corner_lt {i j : ℕ} (hi : i ≤ n) (hj : j ≤ m) : corner n i j < (n + 1) * (m + 1) := by
  calc corner n i j < j * (n + 1) + (n + 1) := Nat.add_lt_add_left (Nat.lt_succ_of_le hi) _
    _ = (n + 1) * (j + 1) := by ring
    _ ≤ (n + 1) * (m + 1) := Nat.mul_le_mul_left _ (Nat.succ_le_succ hj)

lemma exists_corner {k : ℕ} (hk : k < (n + 1) * (m + 1)) :
    ∃ i ≤ n, ∃ j ≤ m, corner n i j = k := by
  refine ⟨k % (n + 1), Nat.le_of_lt_succ (Nat.mod_lt _ (Nat.succ_pos n)), k / (n + 1), ?_, ?_⟩
  · exact Nat.le_of_lt_succ (Nat.div_lt_of_lt_mul hk)
  · rw [corner, Nat.mul_comm]
    exact Nat.div_add_mod k (n + 1)

lemma mem_cells {c : ℕ} : c ∈ cells n m ↔ ∃ i < n, ∃ j < m, corner n i j = c := by
  simp only [cells, List.mem_flatMap, List.mem_map, List.mem_range]
  constructor
  · rintro ⟨j, hj, i, hi, rfl⟩
    exact ⟨i, hi, j, hj, rfl⟩
  · rintro ⟨i, hi, j, hj, rfl⟩
    exact ⟨j, hj, i, hi, rfl⟩

lemma corner_mem_cells {i j : ℕ} (hi : i < n) (hj : j < m) : corner n i j ∈ cells n m :=
  mem_cells.mpr ⟨i, hi, j, hj, rfl⟩

lemma nodup_cells (n m : ℕ) : (cells n m).Nodup := by
  rw [cells, List.nodup_flatMap]
  constructor
  · intro j _
    exact List.nodup_range.map fun i i' h => Nat.add_left_cancel h
  · refine List.nodup_range.imp fun {j j'} hne => ?_
    intro c hc hc'
    simp only [List.mem_map, List.mem_range] at hc hc'
    obtain ⟨i, hi, rfl⟩ := hc
    obtain ⟨i', hi', h⟩ := hc'
    exact hne (corner_injective hi.le hi'.le h.symm).2

lemma length_cells (n m : ℕ) : (cells n m).length = n * m := by
  simp [cells, List.length_flatMap, Nat.mul_comm]

/-! ## Triangles -/

/-- The three corners of a triangle. -/
def vertices (f : ℕ × ℕ × ℕ) : List ℕ := [f.1, f.2.1, f.2.2]

/-- The three sides of a triangle in the direction in which it runs through them. -/
def arrows (f : ℕ × ℕ × ℕ) : List (ℕ × ℕ) := [(f.1, f.2.1), (f.2.1, f.2.2), (f.2.2, f.1)]

/-- The three sides of a triangle without a direction. -/
def sides (f : ℕ × ℕ × ℕ) : List (Sym2 ℕ) := (arrows f).map fun a => s(a.1, a.2)

lemma mem_faces {f : ℕ × ℕ × ℕ} :
    f ∈ faces n m ↔ ∃ c ∈ cells n m, f = below n c ∨ f = above n c := by
  simp only [faces, List.mem_append, List.mem_map]
  constructor
  · rintro (⟨c, hc, rfl⟩ | ⟨c, hc, rfl⟩)
    · exact ⟨c, hc, .inl rfl⟩
    · exact ⟨c, hc, .inr rfl⟩
  · rintro ⟨c, hc, rfl | rfl⟩
    · exact .inl ⟨c, hc, rfl⟩
    · exact .inr ⟨c, hc, rfl⟩

lemma mem_arrows_below {c : ℕ} {a : ℕ × ℕ} : a ∈ arrows (below n c) ↔
    a = (c, c + 1) ∨ a = (c + 1, c + (n + 1) + 1) ∨ a = (c + (n + 1) + 1, c) := by
  simp only [arrows, below, List.mem_cons, List.not_mem_nil, or_false]

lemma mem_arrows_above {c : ℕ} {a : ℕ × ℕ} : a ∈ arrows (above n c) ↔
    a = (c, c + (n + 1) + 1) ∨ a = (c + (n + 1) + 1, c + (n + 1)) ∨ a = (c + (n + 1), c) := by
  simp only [arrows, above, List.mem_cons, List.not_mem_nil, or_false]

/-- **No two triangles run through a side in the same direction.** -/
lemma arrows_disjoint (hn : 0 < n) :
    (faces n m).Pairwise fun f g => (arrows f).Disjoint (arrows g) := by
  -- The six sides of a cell differ in the distance and the order of their ends, and the first corner
  -- of a side tells its cell.
  rw [faces, List.pairwise_append, List.pairwise_map, List.pairwise_map]
  refine ⟨(nodup_cells n m).imp fun {c c'} hne => ?_, (nodup_cells n m).imp fun {c c'} hne => ?_, ?_⟩
  · rintro ⟨p, q⟩ h h'
    simp only [mem_arrows_below, Prod.mk.injEq] at h h'
    omega
  · rintro ⟨p, q⟩ h h'
    simp only [mem_arrows_above, Prod.mk.injEq] at h h'
    omega
  · intro f hf g hg
    obtain ⟨c, -, rfl⟩ := List.mem_map.mp hf
    obtain ⟨c', -, rfl⟩ := List.mem_map.mp hg
    rintro ⟨p, q⟩ h h'
    simp only [mem_arrows_below, mem_arrows_above, Prod.mk.injEq] at h h'
    omega

/-! ## Sides and the triangles that have them -/

/-- Sides are told apart by their lower corner and by how far the upper one is from it. -/
lemma side_eq_iff {p q k k' : ℕ} (hk : 0 < k) : s(p, p + k) = s(q, q + k') ↔ p = q ∧ k = k' := by
  rw [Sym2.eq_iff]
  omega

lemma mem_sides_below {c p k : ℕ} (hk : 0 < k) : s(p, p + k) ∈ sides (below n c) ↔
    (k = 1 ∧ p = c) ∨ (k = n + 1 ∧ p = c + 1) ∨ (k = n + 2 ∧ p = c) := by
  simp only [sides, arrows, below, List.map_cons, List.map_nil, List.mem_cons, List.not_mem_nil,
    or_false, Sym2.eq_iff]
  omega

lemma mem_sides_above {c p k : ℕ} (hk : 0 < k) : s(p, p + k) ∈ sides (above n c) ↔
    (k = n + 2 ∧ p = c) ∨ (k = 1 ∧ p = c + (n + 1)) ∨ (k = n + 1 ∧ p = c) := by
  simp only [sides, arrows, above, List.map_cons, List.map_nil, List.mem_cons, List.not_mem_nil,
    or_false, Sym2.eq_iff]
  omega

/-- The number of triangles with a side. -/
def degree (faces : List (ℕ × ℕ × ℕ)) (e : Sym2 ℕ) : ℕ := faces.countP (e ∈ sides ·)

lemma degree_faces (e : Sym2 ℕ) : degree (faces n m) e =
    (cells n m).countP (fun c => e ∈ sides (below n c))
      + (cells n m).countP (fun c => e ∈ sides (above n c)) := by
  rw [degree, faces, List.countP_append, List.countP_map, List.countP_map]
  rfl

/-- At most one cell has a corner at a given distance before another one. -/
lemma countP_cells {t : ℕ → Prop} [DecidablePred t] (p k : ℕ) (h : ∀ c, t c ↔ p = c + k) :
    (cells n m).countP (fun c => t c) = if ∃ c ∈ cells n m, p = c + k then 1 else 0 := by
  have hcount : (cells n m).countP (fun c => t c) = ((cells n m).map (· + k)).count p := by
    rw [List.count, List.countP_map]
    refine List.countP_congr fun c _ => ?_
    simp only [h c, decide_eq_true_eq, Function.comp_apply, beq_iff_eq]
    exact eq_comm
  have hnodup : ((cells n m).map (· + k)).Nodup := (nodup_cells n m).map (add_left_injective k)
  rw [hcount, hnodup.count]
  simp only [List.mem_map, eq_comm]

section Degree

variable (hn : 0 < n) (p : ℕ)
include hn

/-- A side from left to right bounds the cell above it and the cell below it. -/
lemma degree_across : degree (faces n m) s(p, p + 1) =
    (if p ∈ cells n m then 1 else 0) + (if ∃ c ∈ cells n m, p = c + (n + 1) then 1 else 0) := by
  rw [degree_faces, countP_cells p 0, countP_cells p (n + 1)]
  · simp only [add_zero, exists_eq_right']
  · intro c
    rw [mem_sides_above one_pos]
    omega
  · intro c
    rw [mem_sides_below one_pos]
    omega

/-- A side from one row to the next bounds the cell to its left and the cell to its right. -/
lemma degree_upward : degree (faces n m) s(p, p + (n + 1)) =
    (if ∃ c ∈ cells n m, p = c + 1 then 1 else 0) + (if p ∈ cells n m then 1 else 0) := by
  rw [degree_faces, countP_cells p 1, countP_cells p 0]
  · simp only [add_zero, exists_eq_right']
  · intro c
    rw [mem_sides_above n.succ_pos]
    omega
  · intro c
    rw [mem_sides_below n.succ_pos]
    omega

/-- A diagonal is a side of both triangles of its cell. -/
lemma degree_diagonal : degree (faces n m) s(p, p + (n + 2)) =
    (if p ∈ cells n m then 1 else 0) + (if p ∈ cells n m then 1 else 0) := by
  rw [degree_faces, countP_cells p 0, countP_cells p 0]
  · simp only [add_zero, exists_eq_right']
  · intro c
    rw [mem_sides_above (by omega)]
    omega
  · intro c
    rw [mem_sides_below (by omega)]
    omega

end Degree

/-! ## The border -/

/-- The sides along the border of a grid: its first and last row, then its first and last column. -/
def rim (n m : ℕ) : List (Sym2 ℕ) :=
  ([0, m].flatMap fun j => (List.range n).map fun i => s(corner n i j, corner n (i + 1) j))
    ++ [0, n].flatMap fun i => (List.range m).map fun j => s(corner n i j, corner n i (j + 1))

lemma length_rim (n m : ℕ) : (rim n m).length = 2 * (n + m) := by
  simp only [rim, List.length_append, List.length_flatMap, List.length_map, List.length_range,
    List.map_cons, List.map_nil, List.sum_cons, List.sum_nil]
  omega

lemma mem_rim {e : Sym2 ℕ} : e ∈ rim n m ↔
    (∃ j, (j = 0 ∨ j = m) ∧ ∃ i < n, s(corner n i j, corner n i j + 1) = e)
      ∨ ∃ i, (i = 0 ∨ i = n) ∧ ∃ j < m, s(corner n i j, corner n i j + (n + 1)) = e := by
  simp only [rim, List.mem_append, List.mem_flatMap, List.mem_cons, List.not_mem_nil, or_false,
    List.mem_map, List.mem_range, corner_right, corner_up]

lemma across_injective {i i' j j' : ℕ} (hi : i ≤ n) (hi' : i' ≤ n)
    (h : s(corner n i j, corner n (i + 1) j) = s(corner n i' j', corner n (i' + 1) j')) :
    i = i' ∧ j = j' := by
  rw [corner_right, corner_right, side_eq_iff one_pos] at h
  exact corner_injective hi hi' h.1

lemma upward_injective {i i' j j' : ℕ} (hi : i ≤ n) (hi' : i' ≤ n)
    (h : s(corner n i j, corner n i (j + 1)) = s(corner n i' j', corner n i' (j' + 1))) :
    i = i' ∧ j = j' := by
  rw [corner_up, corner_up, side_eq_iff n.succ_pos] at h
  exact corner_injective hi hi' h.1

/-- Sides in two different rows or columns are not listed twice. -/
lemma nodup_strips {f : ℕ → ℕ → Sym2 ℕ} {a b k : ℕ} (hab : a ≠ b)
    (hf : ∀ x ∈ [a, b], ∀ x' ∈ [a, b], ∀ y < k, ∀ y' < k, f x y = f x' y' → x = x' ∧ y = y') :
    ([a, b].flatMap fun x => (List.range k).map (f x)).Nodup := by
  rw [List.nodup_flatMap]
  constructor
  · intro x hx
    refine List.Nodup.map_on (fun y hy y' hy' h => ?_) List.nodup_range
    exact (hf x hx x hx y (List.mem_range.mp hy) y' (List.mem_range.mp hy') h).2
  · rw [List.pairwise_pair]
    intro e he he'
    obtain ⟨y, hy, rfl⟩ := List.mem_map.mp he
    obtain ⟨y', hy', h⟩ := List.mem_map.mp he'
    have hsame := hf b (by simp) a (by simp) y' (List.mem_range.mp hy') y (List.mem_range.mp hy) h
    exact hab hsame.1.symm

lemma nodup_rim (hn : 0 < n) (hm : 0 < m) : (rim n m).Nodup := by
  rw [rim, List.nodup_append']
  refine ⟨nodup_strips hm.ne ?_, nodup_strips hn.ne ?_, ?_⟩
  · intro j _ j' _ i hi i' hi' h
    exact (across_injective hi.le hi'.le h).symm
  · intro i hi i' hi' j _ j' _ h
    have hcolumn : ∀ i ∈ [0, n], i ≤ n := by simp
    exact upward_injective (hcolumn i hi) (hcolumn i' hi') h
  · intro e he he'
    simp only [List.mem_flatMap, List.mem_map] at he he'
    obtain ⟨j, -, i, -, rfl⟩ := he
    obtain ⟨i', -, j', -, h⟩ := he'
    rw [corner_right, corner_up, side_eq_iff n.succ_pos] at h
    omega

/-! ## How many triangles have a side -/

section Border

variable {i j : ℕ} (hi : i ≤ n)
include hi

lemma corner_mem_cells_iff : corner n i j ∈ cells n m ↔ i < n ∧ j < m := by
  constructor
  · intro h
    obtain ⟨i', hi', j', hj', h⟩ := mem_cells.mp h
    obtain ⟨rfl, rfl⟩ := corner_injective hi hi'.le h.symm
    exact ⟨hi', hj'⟩
  · rintro ⟨hi', hj'⟩
    exact corner_mem_cells hi' hj'

lemma left_of_corner_iff : (∃ c ∈ cells n m, corner n i j = c + 1) ↔ 0 < i ∧ j < m := by
  constructor
  · rintro ⟨c, hc, h⟩
    obtain ⟨i', hi', j', hj', rfl⟩ := mem_cells.mp hc
    rw [← corner_right] at h
    obtain ⟨rfl, rfl⟩ := corner_injective hi hi' h
    exact ⟨i'.succ_pos, hj'⟩
  · rintro ⟨hi', hj'⟩
    obtain ⟨i', rfl⟩ := Nat.exists_eq_add_one.mpr hi'
    exact ⟨_, corner_mem_cells hi hj', rfl⟩

lemma under_corner_iff (hj : j ≤ m) : (∃ c ∈ cells n m, corner n i j = c + (n + 1)) ↔ i < n ∧ 0 < j := by
  constructor
  · rintro ⟨c, hc, h⟩
    obtain ⟨i', hi', j', hj', rfl⟩ := mem_cells.mp hc
    rw [← corner_up] at h
    obtain ⟨rfl, rfl⟩ := corner_injective hi hi'.le h
    exact ⟨hi', j'.succ_pos⟩
  · rintro ⟨hi', hj'⟩
    obtain ⟨j', rfl⟩ := Nat.exists_eq_add_one.mpr hj'
    exact ⟨_, corner_mem_cells hi' hj, corner_up n i j'⟩

/-- Along the border a side belongs to one triangle, elsewhere to two or none. -/
lemma degree_across_corner (hn : 0 < n) (hm : 0 < m) (hj : j ≤ m) :
    degree (faces n m) s(corner n i j, corner n i j + 1) = 1 ↔ i < n ∧ (j = 0 ∨ j = m) := by
  simp only [degree_across hn, corner_mem_cells_iff hi, under_corner_iff hi hj]
  split_ifs <;> omega

lemma degree_upward_corner (hn : 0 < n) :
    degree (faces n m) s(corner n i j, corner n i j + (n + 1)) = 1 ↔ j < m ∧ (i = 0 ∨ i = n) := by
  simp only [degree_upward hn, corner_mem_cells_iff hi, left_of_corner_iff hi]
  split_ifs <;> omega

end Border

/-! ## Corners of the triangles -/

/-- The corners of the cell in a column and a row. -/
def cell (n i j : ℕ) : List ℕ :=
  [corner n i j, corner n (i + 1) j, corner n (i + 1) (j + 1), corner n i (j + 1)]

/-- What joins the first corner of a cell to the opposite one. -/
def diagonal (n i j : ℕ) : Sym2 ℕ := s(corner n i j, corner n (i + 1) (j + 1))

lemma below_corner (n i j : ℕ) :
    below n (corner n i j) = (corner n i j, corner n (i + 1) j, corner n (i + 1) (j + 1)) := by
  simp only [below, corner_right, corner_up]

lemma above_corner (n i j : ℕ) :
    above n (corner n i j) = (corner n i j, corner n (i + 1) (j + 1), corner n i (j + 1)) := by
  simp only [above, corner_right, corner_up]

lemma vertices_below (n i j : ℕ) : vertices (below n (corner n i j)) =
    [corner n i j, corner n (i + 1) j, corner n (i + 1) (j + 1)] := by
  rw [below_corner, vertices]

lemma vertices_above (n i j : ℕ) : vertices (above n (corner n i j)) =
    [corner n i j, corner n (i + 1) (j + 1), corner n i (j + 1)] := by
  rw [above_corner, vertices]

/-- The triangles of a grid are the two of each of its cells. -/
lemma forall_faces {P : ℕ × ℕ × ℕ → Prop} : (∀ f ∈ faces n m, P f) ↔
    ∀ i < n, ∀ j < m, P (below n (corner n i j)) ∧ P (above n (corner n i j)) := by
  constructor
  · intro h i hi j hj
    have hcell := corner_mem_cells hi hj
    exact ⟨h _ (mem_faces.mpr ⟨_, hcell, .inl rfl⟩), h _ (mem_faces.mpr ⟨_, hcell, .inr rfl⟩)⟩
  · intro h f hf
    obtain ⟨c, hc, hf⟩ := mem_faces.mp hf
    obtain ⟨i, hi, j, hj, rfl⟩ := mem_cells.mp hc
    rcases hf with rfl | rfl
    · exact (h i hi j hj).1
    · exact (h i hi j hj).2

lemma in_cell {f : ℕ × ℕ × ℕ} (hf : f ∈ faces n m) :
    ∃ i < n, ∃ j < m, ∀ v ∈ vertices f, v ∈ cell n i j := by
  revert f
  rw [forall_faces]
  refine fun i hi j hj => ⟨⟨i, hi, j, hj, ?_⟩, i, hi, j, hj, ?_⟩
  · simp [vertices_below, cell]
  · simp [vertices_above, cell]

lemma lt_of_mem_cell {i j v : ℕ} (hi : i < n) (hj : j < m) (hv : v ∈ cell n i j) :
    v < (n + 1) * (m + 1) := by
  simp only [cell, List.mem_cons, List.not_mem_nil, or_false] at hv
  rcases hv with rfl | rfl | rfl | rfl
  · exact corner_lt hi.le hj.le
  · exact corner_lt hi hj.le
  · exact corner_lt hi hj
  · exact corner_lt hi.le hj

lemma vertices_nodup {f : ℕ × ℕ × ℕ} (hf : f ∈ faces n m) (hn : 0 < n) : (vertices f).Nodup := by
  obtain ⟨c, -, rfl | rfl⟩ := mem_faces.mp hf <;>
    simp only [vertices, below, above, List.nodup_cons, List.mem_cons, List.not_mem_nil, or_false,
      not_false_eq_true, List.nodup_nil, and_true] <;> omega

/-- Every corner of the grid is a corner of a cell. -/
lemma exists_cell (hn : 0 < n) (hm : 0 < m) {i j : ℕ} (hi : i ≤ n) (hj : j ≤ m) :
    ∃ i' < n, ∃ j' < m, corner n i j ∈ cell n i' j' := by
  have hcolumn : ∃ i' < n, i = i' ∨ i = i' + 1 := by
    rcases hi.lt_or_eq with h | rfl
    · exact ⟨i, h, .inl rfl⟩
    · exact ⟨i - 1, by omega, .inr (by omega)⟩
  have hrow : ∃ j' < m, j = j' ∨ j = j' + 1 := by
    rcases hj.lt_or_eq with h | rfl
    · exact ⟨j, h, .inl rfl⟩
    · exact ⟨j - 1, by omega, .inr (by omega)⟩
  obtain ⟨i', hi', h⟩ := hcolumn
  obtain ⟨j', hj', h'⟩ := hrow
  refine ⟨i', hi', j', hj', ?_⟩
  rcases h with rfl | rfl <;> rcases h' with rfl | rfl <;> simp [cell]

lemma mem_cell {i j v : ℕ} : v ∈ cell n i j ↔
    v = corner n i j ∨ v = corner n i j + 1 ∨ v = corner n i j + (n + 1) + 1
      ∨ v = corner n i j + (n + 1) := by
  simp only [cell, corner_right, corner_up, List.mem_cons, List.not_mem_nil, or_false]

lemma mem_vertices_of_mem_cell {i j v : ℕ} (hv : v ∈ cell n i j) :
    v ∈ vertices (below n (corner n i j)) ∨ v ∈ vertices (above n (corner n i j)) := by
  simp only [cell, vertices_below, vertices_above, List.mem_cons, List.not_mem_nil, or_false] at hv ⊢
  tauto

/-- The triangles whose corners are those of one cell. -/
lemma filter_cell {i j : ℕ} (hi : i < n) (hj : j < m) :
    (faces n m).filter (fun f => ∀ v ∈ vertices f, v ∈ cell n i j)
      = [below n (corner n i j), above n (corner n i j)] := by
  have hone : (cells n m).filter (· == corner n i j) = [corner n i j] := by
    rw [List.filter_beq, List.count_eq_one_of_mem (nodup_cells n m) (corner_mem_cells hi hj),
      List.replicate_one]
  -- The first and the last corner of a cell are as far apart as two corners of a triangle can be.
  have hbelow : ∀ c, (∀ v ∈ vertices (below n c), v ∈ cell n i j) ↔ c = corner n i j := by
    intro c
    constructor
    · intro h
      have hfirst := mem_cell.mp (h c (by simp [vertices, below]))
      have hlast := mem_cell.mp (h (c + (n + 1) + 1) (by simp [vertices, below]))
      omega
    · rintro rfl
      simp [vertices_below, cell]
  have habove : ∀ c, (∀ v ∈ vertices (above n c), v ∈ cell n i j) ↔ c = corner n i j := by
    intro c
    constructor
    · intro h
      have hfirst := mem_cell.mp (h c (by simp [vertices, above]))
      have hlast := mem_cell.mp (h (c + (n + 1) + 1) (by simp [vertices, above]))
      omega
    · rintro rfl
      simp [vertices_above, cell]
  have hkeep : ∀ {g : ℕ → ℕ × ℕ × ℕ},
      (∀ c, (∀ v ∈ vertices (g c), v ∈ cell n i j) ↔ c = corner n i j) →
      ((cells n m).map g).filter (fun f => ∀ v ∈ vertices f, v ∈ cell n i j)
        = [g (corner n i j)] := by
    intro g hg
    rw [List.filter_map, ← List.map_singleton, ← hone]
    congr 1
    refine List.filter_congr fun c _ => ?_
    simp only [Function.comp_apply, hg, beq_eq_decide]
  rw [faces, List.filter_append, hkeep hbelow, hkeep habove, List.singleton_append]

/-! ## The surface -/

/-- Triangles that fit together to a surface with the corners of `n` by `m` cells. -/
structure Manifold (n m : ℕ) (faces : List (ℕ × ℕ × ℕ)) : Prop where
  length : faces.length = 2 * n * m
  /-- The corners of a triangle are three corners of one cell of the grid. -/
  inside : ∀ f ∈ faces, (vertices f).Nodup ∧ (∀ v ∈ vertices f, v < (n + 1) * (m + 1))
    ∧ ∃ i < n, ∃ j < m, ∀ v ∈ vertices f, v ∈ cell n i j
  covers : ∀ v < (n + 1) * (m + 1), ∃ f ∈ faces, v ∈ vertices f
  /-- No two triangles run through a side in the same direction. -/
  oriented : faces.Pairwise fun f g => (arrows f).Disjoint (arrows g)
  shared : ∀ e, degree faces e ≤ 2
  /-- The sides of one triangle only are those of the border, and there are so many of them. -/
  border : (∀ e, degree faces e = 1 ↔ e ∈ rim n m)
    ∧ (rim n m).Nodup ∧ (rim n m).length = 2 * (n + m)
  /-- Two triangles make up a cell and have its diagonal in common. -/
  halves : ∀ i < n, ∀ j < m, ∃ f g,
    faces.filter (fun f => ∀ v ∈ vertices f, v ∈ cell n i j) = [f, g]
      ∧ diagonal n i j ∈ sides f ∧ diagonal n i j ∈ sides g
      ∧ ∀ v ∈ cell n i j, v ∈ vertices f ∨ v ∈ vertices g

lemma length_faces (n m : ℕ) : (faces n m).length = 2 * n * m := by
  rw [faces, List.length_append, List.length_map, List.length_map, length_cells]
  ring

/-- A side joins neighbours in a row or a column, or it is a diagonal. -/
lemma side_cases {f : ℕ × ℕ × ℕ} (hf : f ∈ faces n m) {e : Sym2 ℕ} (he : e ∈ sides f) :
    ∃ p ∈ vertices f, e = s(p, p + 1) ∨ e = s(p, p + (n + 1)) ∨ e = s(p, p + (n + 2)) := by
  obtain ⟨c, -, rfl | rfl⟩ := mem_faces.mp hf <;>
    simp only [sides, arrows, below, above, List.map_cons, List.map_nil, List.mem_cons,
      List.not_mem_nil, or_false] at he
  · rcases he with rfl | rfl | rfl
    · exact ⟨c, by simp [vertices, below], .inl rfl⟩
    · exact ⟨c + 1, by simp [vertices, below], .inr (.inl (by congr 1; omega))⟩
    · exact ⟨c, by simp [vertices, below], .inr (.inr Sym2.eq_swap)⟩
  · rcases he with rfl | rfl | rfl
    · exact ⟨c, by simp [vertices, above], .inr (.inr rfl)⟩
    · exact ⟨c + (n + 1), by simp [vertices, above], .inl Sym2.eq_swap⟩
    · exact ⟨c, by simp [vertices, above], .inr (.inl Sym2.eq_swap)⟩

lemma exists_side {e : Sym2 ℕ} (h : 0 < degree (faces n m) e) :
    ∃ i ≤ n, ∃ j ≤ m, e = s(corner n i j, corner n i j + 1)
      ∨ e = s(corner n i j, corner n i j + (n + 1)) ∨ e = s(corner n i j, corner n i j + (n + 2)) := by
  obtain ⟨f, hf, he⟩ := List.countP_pos_iff.mp h
  obtain ⟨p, hp, hcases⟩ := side_cases hf (of_decide_eq_true he)
  obtain ⟨i', hi', j', hj', hin⟩ := in_cell hf
  obtain ⟨i, hi, j, hj, rfl⟩ := exists_corner (lt_of_mem_cell hi' hj' (hin p hp))
  exact ⟨i, hi, j, hj, hcases⟩

lemma degree_le_two (hn : 0 < n) (e : Sym2 ℕ) : degree (faces n m) e ≤ 2 := by
  rcases Nat.eq_zero_or_pos (degree (faces n m) e) with h | h
  · omega
  · obtain ⟨i, -, j, -, rfl | rfl | rfl⟩ := exists_side h
    · rw [degree_across hn]
      split_ifs <;> omega
    · rw [degree_upward hn]
      split_ifs <;> omega
    · rw [degree_diagonal hn]
      split_ifs <;> omega

lemma degree_eq_one_iff (hn : 0 < n) (hm : 0 < m) (e : Sym2 ℕ) :
    degree (faces n m) e = 1 ↔ e ∈ rim n m := by
  rw [mem_rim]
  constructor
  · intro h
    obtain ⟨i, hi, j, hj, rfl | rfl | rfl⟩ := exists_side (h ▸ one_pos)
    · obtain ⟨hi', hend⟩ := (degree_across_corner hi hn hm hj).mp h
      exact .inl ⟨j, hend, i, hi', rfl⟩
    · obtain ⟨hj', hend⟩ := (degree_upward_corner hi hn).mp h
      exact .inr ⟨i, hend, j, hj', rfl⟩
    · rw [degree_diagonal hn] at h
      split_ifs at h <;> omega
  · rintro (⟨j, hend, i, hi, rfl⟩ | ⟨i, hend, j, hj, rfl⟩)
    · exact (degree_across_corner hi.le hn hm (by omega)).mpr ⟨hi, hend⟩
    · exact (degree_upward_corner (by omega) hn).mpr ⟨hj, hend⟩

/-- **The triangles of a grid fit together.** -/
theorem manifold_faces (hn : 0 < n) (hm : 0 < m) : Manifold n m (faces n m) where
  length := length_faces n m
  inside f hf := by
    obtain ⟨i, hi, j, hj, hin⟩ := in_cell hf
    exact ⟨vertices_nodup hf hn, fun v hv => lt_of_mem_cell hi hj (hin v hv), i, hi, j, hj, hin⟩
  covers v hv := by
    obtain ⟨i, hi, j, hj, rfl⟩ := exists_corner hv
    obtain ⟨i', hi', j', hj', hcell⟩ := exists_cell hn hm hi hj
    have hc := corner_mem_cells hi' hj'
    rcases mem_vertices_of_mem_cell hcell with h | h
    · exact ⟨_, mem_faces.mpr ⟨_, hc, .inl rfl⟩, h⟩
    · exact ⟨_, mem_faces.mpr ⟨_, hc, .inr rfl⟩, h⟩
  oriented := arrows_disjoint hn
  shared := degree_le_two hn
  border := ⟨degree_eq_one_iff hn hm, nodup_rim hn hm, length_rim n m⟩
  halves i hi j hj := by
    refine ⟨_, _, filter_cell hi hj, ?_, ?_, fun v hv => mem_vertices_of_mem_cell hv⟩
    · simp [diagonal, sides, arrows, below, corner_right, corner_up]
    · simp [diagonal, sides, arrows, above, corner_right, corner_up]

end Grid

end Contour
