import Contour.Proofs.Samples

/-!
# Boxes of curves are exact

A box that holds a curve may still be too large.  The box of a circle or of an arc is not: each of its
sides touches the curve.  For an arc this rests on both halves of the test that picks its corners.  A
corner that the test picks is on the arc, and where the arc is furthest out, either it ends or the test
picks a corner.

* `Box.Exact` — the corners of a box are the least and the greatest coordinates of some points.
* `Box.exact_ofPoints` — a box around corners is exact if the corners are among the points it holds.
* `Circle.exact_box`, `Arc.Drawn.exact_box`, `Curve.box_exact` — the boxes of circles and arcs.
-/

namespace Contour

open Real (pi)

/-! ## Exact boxes -/

section Extremes

variable {α : Type}

/-- A fold that keeps one of two numbers ends with one of the numbers. -/
lemma mem_foldl {f : α → α → α} (hpick : ∀ x y, f x y = x ∨ f x y = y) (x : α) (xs : List α) :
    xs.foldl f x ∈ x :: xs := by
  induction xs generalizing x with
  | nil => exact List.mem_singleton_self x
  | cons y rest ih =>
      rcases List.mem_cons.mp (ih (f x y)) with hkept | hlater
      · rw [List.foldl_cons, hkept]
        rcases hpick x y with h | h
        · rw [h]
          exact List.mem_cons_self
        · rw [h]
          exact List.mem_cons_of_mem _ List.mem_cons_self
      · exact List.mem_cons_of_mem _ (List.mem_cons_of_mem _ hlater)

variable [LT α] [DecidableLT α]

lemma smaller_eq_or (x y : α) : Scalar.smaller x y = x ∨ Scalar.smaller x y = y := by
  unfold Scalar.smaller
  split_ifs
  · exact .inr rfl
  · exact .inl rfl

lemma larger_eq_or (x y : α) : Scalar.larger x y = x ∨ Scalar.larger x y = y := by
  unfold Scalar.larger
  split_ifs
  · exact .inr rfl
  · exact .inl rfl

end Extremes

namespace Box

variable {b : Box ℝ} {points : Set (Point ℝ)}

/-- The lower left corner of a box has the least coordinates of some points, and the upper right corner
the greatest. -/
structure Exact (b : Box ℝ) (points : Set (Point ℝ)) : Prop where
  left : IsLeast (Point.x '' points) b.least.x
  right : IsGreatest (Point.x '' points) b.greatest.x
  bottom : IsLeast (Point.y '' points) b.least.y
  top : IsGreatest (Point.y '' points) b.greatest.y

/-- A box that holds points and has one of them on each side is exact. -/
lemma Exact.of_touched (hholds : ∀ q ∈ points, b.Holds 0 q) (hleft : ∃ q ∈ points, q.x = b.least.x)
    (hright : ∃ q ∈ points, q.x = b.greatest.x) (hbottom : ∃ q ∈ points, q.y = b.least.y)
    (htop : ∃ q ∈ points, q.y = b.greatest.y) : b.Exact points where
  left := ⟨hleft, Set.forall_mem_image.mpr fun q hq => by linarith [(hholds q hq).left]⟩
  right := ⟨hright, Set.forall_mem_image.mpr fun q hq => by linarith [(hholds q hq).right]⟩
  bottom := ⟨hbottom, Set.forall_mem_image.mpr fun q hq => by linarith [(hholds q hq).below]⟩
  top := ⟨htop, Set.forall_mem_image.mpr fun q hq => by linarith [(hholds q hq).above]⟩

/-- **A box around corners is exact** if it holds the points and every corner is one of them, whatever
its height. -/
lemma exact_ofPoints {p : Point ℝ} {rest : List (Point ℝ)}
    (hholds : ∀ q ∈ points, (ofPoints p rest).Holds 0 q)
    (hcorner : ∀ q ∈ p :: rest, ∃ r ∈ points, r.x = q.x ∧ r.y = q.y) :
    (ofPoints p rest).Exact points := by
  have htouched : ∀ coordinate : Point ℝ → ℝ,
      (∀ q ∈ p :: rest, ∃ r ∈ points, coordinate r = coordinate q) →
      ∀ f : ℝ → ℝ → ℝ, (∀ x y, f x y = x ∨ f x y = y) →
        ∃ r ∈ points, coordinate r = (rest.map coordinate).foldl f (coordinate p) := by
    intro coordinate hcoordinate f hpick
    obtain ⟨q, hq, heq⟩ : ∃ q ∈ p :: rest, coordinate q = (rest.map coordinate).foldl f (coordinate p) :=
      List.mem_map.mp (mem_foldl hpick (coordinate p) (rest.map coordinate))
    obtain ⟨r, hr, hrq⟩ := hcoordinate q hq
    exact ⟨r, hr, hrq.trans heq⟩
  have hx := htouched Point.x fun q hq => (hcorner q hq).imp fun _ h => ⟨h.1, h.2.1⟩
  have hy := htouched Point.y fun q hq => (hcorner q hq).imp fun _ h => ⟨h.1, h.2.2⟩
  exact .of_touched hholds (hx _ smaller_eq_or) (hx _ larger_eq_or) (hy _ smaller_eq_or)
    (hy _ larger_eq_or)

end Box

/-! ## Circles -/

/-- **The box of a circle is exact**: a quarter of a turn leads from each of its sides to the next. -/
lemma Circle.exact_box {k : Circle ℝ} (hradius : 0 < k.radius) :
    k.box.Exact (Segment.curve (.circle k)).samples := by
  have hmem {q : Point ℝ} := Curve.mem_samples_iff (c := .circle k) (q := q) turn_pos.le
  have hsample : ∀ θ, 0 ≤ θ → θ ≤ 2 * pi →
      k.center.around k.radius θ ∈ (Segment.curve (.circle k)).samples :=
    fun θ hlow hhigh => hmem.mpr ⟨θ, hlow, hhigh, rfl⟩
  have hpi := Real.pi_pos
  have hleft := hsample pi hpi.le (by linarith)
  have hright := hsample 0 le_rfl turn_pos.le
  have hbottom := hsample (pi / 2 + pi) (by linarith) (by linarith)
  have htop := hsample (pi / 2) (by linarith) (by linarith)
  refine .of_touched (fun q hq => ?_) ⟨_, hleft, ?_⟩ ⟨_, hright, ?_⟩ ⟨_, hbottom, ?_⟩ ⟨_, htop, ?_⟩
  · obtain ⟨θ, -, -, rfl⟩ := hmem.mp hq
    change k.box.Holds 0 (k.center.around k.radius θ)
    constructor <;> simp only [box, Point.planar, Point.around] <;>
      nlinarith [Real.neg_one_le_cos θ, Real.cos_le_one θ, Real.neg_one_le_sin θ, Real.sin_le_one θ]
  · simp [box, Point.planar, Point.around, sub_eq_add_neg]
  · simp [box, Point.planar, Point.around]
  · simp [box, Point.planar, Point.around, Real.sin_add_pi, sub_eq_add_neg]
  · simp [box, Point.planar, Point.around]

/-! ## Arcs -/

/-- An angle that passes the test is, up to one turn, between the two angles. -/
lemma Angle.exists_turns_of_inRange {angle start stop : ℝ} (h : inRange angle start stop 0 = true) :
    ∃ n : ℤ, start ≤ angle + n * (2 * pi) ∧ angle + n * (2 * pi) ≤ stop := by
  simp only [inRange, List.any_cons, List.any_nil, Bool.or_false, Bool.or_eq_true, Bool.and_eq_true,
    decide_eq_true_eq, turn_eq, sub_zero, add_zero] at h
  rcases h with h | h | h
  · exact ⟨0, by simpa using h⟩
  · exact ⟨1, by simpa using h⟩
  · exact ⟨-1, by simpa [sub_eq_add_neg] using h⟩

namespace Arc

variable {a : Arc ℝ}

/-- The extreme points of an arc are, but for their height, on the arc. -/
lemma exists_around_of_mem_extrema {q : Point ℝ} (hq : q ∈ a.extrema) :
    ∃ θ, a.startAngle ≤ θ ∧ θ ≤ a.endAngle ∧ q = (a.center.around a.radius θ).withZ 0 := by
  obtain ⟨d, hd, rfl⟩ := List.mem_map.mp hq
  obtain ⟨hd, hrange⟩ := List.mem_filter.mp hd
  obtain ⟨-, -, hcos, hsin, -⟩ := axisDirections_spec d hd
  obtain ⟨n, hlow, hhigh⟩ := Angle.exists_turns_of_inRange hrange
  refine ⟨_, hlow, hhigh, ?_⟩
  rw [Point.around_add_turns, hcos, hsin]
  rfl

/-- **The box of an arc is exact.** -/
lemma Drawn.exact_box (h : a.Drawn) : a.box.Exact (Segment.curve (.arc a)).samples := by
  have hmem {q : Point ℝ} := Curve.mem_samples_iff (c := .arc a) (q := q) h.start_le_end
  refine Box.exact_ofPoints (fun q hq => ?_) fun q hq => ?_
  · obtain ⟨θ, hlow, hhigh, rfl⟩ := hmem.mp hq
    exact h.holds_around hlow hhigh
  · rcases List.mem_cons.mp hq with rfl | hq
    · exact ⟨_, hmem.mpr ⟨_, le_rfl, h.start_le_end, h.start_eq.symm⟩, rfl, rfl⟩
    rcases List.mem_cons.mp hq with rfl | hq
    · exact ⟨_, hmem.mpr ⟨_, h.start_le_end, le_rfl, h.stop_eq.symm⟩, rfl, rfl⟩
    · obtain ⟨θ, hlow, hhigh, rfl⟩ := exists_around_of_mem_extrema hq
      exact ⟨_, hmem.mpr ⟨θ, hlow, hhigh, rfl⟩, rfl, rfl⟩

end Arc

/-! ## Curves -/

namespace Curve

/-- A circle with a radius, or an arc between the points of its circle at its two angles. -/
def Drawn : Curve ℝ → Prop
  | arc a => a.Drawn
  | circle k => 0 < k.radius

/-- **The boxes of circles and arcs are exact.**  Every parameter gives a sample.  The corners of the
box have the least and the greatest coordinates of the samples, and if the curve lies in the plane of
the segments also the same height. -/
theorem box_exact {c : Curve ℝ} (hc : c.Drawn) (tol : ℝ) :
    (∀ u, ∃ q, (Segment.curve c).sample u = .ok q) ∧
      ((Segment.curve c).box tol).Exact (Segment.curve c).samples ∧
      (c.center.z = 0 → ∀ q ∈ (Segment.curve c).samples,
        q.z = ((Segment.curve c).box tol).least.z ∧ q.z = ((Segment.curve c).box tol).greatest.z) := by
  refine ⟨fun u => ⟨_, rfl⟩, ?_, ?_⟩
  · cases c with
    | arc a => exact Arc.Drawn.exact_box hc
    | circle k => exact Circle.exact_box hc
  · rintro hplanar q ⟨u, -, -, hq⟩
    cases hq
    cases c with
    | arc a => exact ⟨hplanar, hplanar⟩
    | circle k => exact ⟨hplanar, hplanar⟩

/-- The left half of a circle, drawn clockwise. -/
noncomputable def leftHalf : Arc ℝ :=
  ⟨⟨1, 0, 0⟩, 2, ⟨1, -2, 0⟩, ⟨1, 2, 0⟩, pi / 2, pi / 2 + pi, true⟩

/-- The box of the left half of a circle reaches as far to the left as the circle, although both ends
are right below and right above the center. -/
theorem box_exact_left_half :
    (Curve.arc leftHalf).Drawn ∧
      ((Segment.curve (.arc leftHalf)).box coincidentTol).Exact (Segment.curve (.arc leftHalf)).samples ∧
      ((Segment.curve (.arc leftHalf)).box coincidentTol).least.x = -1 := by
  have hpi := Real.pi_pos
  have hdrawn : (Curve.arc leftHalf).Drawn := by
    refine ⟨?_, ?_, ?_, ?_, ?_, ?_⟩
    · change -pi ≤ pi / 2
      linarith
    · change pi / 2 ≤ pi
      linarith
    · change pi / 2 ≤ pi / 2 + pi
      linarith
    · change pi / 2 + pi ≤ pi / 2 + 2 * pi
      linarith
    · change (⟨1, 2, 0⟩ : Point ℝ) = ⟨1 + 2 * Real.cos (pi / 2), 0 + 2 * Real.sin (pi / 2), 0⟩
      norm_num
    · change (⟨1, -2, 0⟩ : Point ℝ)
        = ⟨1 + 2 * Real.cos (pi / 2 + pi), 0 + 2 * Real.sin (pi / 2 + pi), 0⟩
      norm_num [Real.cos_add_pi, Real.sin_add_pi]
  obtain ⟨-, hexact, -⟩ := box_exact hdrawn coincidentTol
  have hmem {q : Point ℝ} := mem_samples_iff (c := .arc leftHalf) (q := q)
    (Arc.Drawn.start_le_end hdrawn)
  refine ⟨hdrawn, hexact, hexact.left.unique ⟨⟨_, hmem.mpr ⟨pi, ?_, ?_, rfl⟩, ?_⟩, ?_⟩⟩
  · change pi / 2 ≤ pi
    linarith
  · change pi ≤ pi / 2 + pi
    linarith
  · change 1 + 2 * Real.cos pi = -1
    norm_num
  · rintro _ ⟨q, hq, rfl⟩
    obtain ⟨θ, -, -, rfl⟩ := hmem.mp hq
    change -1 ≤ 1 + 2 * Real.cos θ
    linarith [Real.neg_one_le_cos θ]

end Curve

end Contour
