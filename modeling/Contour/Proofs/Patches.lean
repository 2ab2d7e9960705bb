import Contour.Patch.Evaluate
import Contour.Proofs.Zero

/-!
# Shapes that are accepted, and their points

The constructors of shapes check what they are given.  This file says what they accept, that they
refuse everything else as a bad value, and where an accepted shape has points and normals.

* `Cylinder.ofRanges_ok`, `ofRanges_eq_ok`, `ofRanges_fault` — cylinders between two ends.
* `Plane.ofCorners_fault` — four corners never lead to a division by zero; `ofCorners_eq_ok_iff` says
  which are accepted.
* `Cylinder.height_of_evaluate` — a point lies at the height that was asked for.
* `Shape.HasPointsAt` — where a shape can be evaluated; `evaluate_ok`, `evaluate_error`.
-/

namespace Contour

/-! ## What is accepted -/

/-- What cannot be made into a shape could not be made before. -/
lemma error_of_map {α β γ : Type} {x : Except (Fault α) β} {f : β → γ} {fault : Fault α}
    (h : x.map f = .error fault) : x = .error fault := by
  cases x with
  | error fault' =>
      cases h
      rfl
  | ok b => cases h

namespace Cylinder

variable {α : Type} [Sub α] [LT α] [LE α] [DecidableLT α] [DecidableLE α] [OfNat α 0]
  [OfScientific α] {center : Point α} {radius startAngle endAngle bottom top : α}

lemma ofRanges_ok (hradius : ¬ radius ≤ 0) (hangles : ¬ endAngle ≤ startAngle)
    (hheights : ¬ top - bottom < extrusionTol) :
    Cylinder.ofRanges center radius startAngle endAngle bottom top
      = .ok ⟨center, radius, startAngle, endAngle, bottom, top⟩ := by
  rw [ofRanges, checkRadius, if_neg hradius]
  exact (if_neg hangles).trans (if_neg hheights)

lemma ofRanges_eq_ok {c : Cylinder α}
    (h : Cylinder.ofRanges center radius startAngle endAngle bottom top = .ok c) :
    c = ⟨center, radius, startAngle, endAngle, bottom, top⟩ := by
  unfold ofRanges checkRadius at h
  split_ifs at h <;> cases h
  rfl

lemma ofRanges_checked {c : Cylinder α}
    (h : Cylinder.ofRanges center radius startAngle endAngle bottom top = .ok c) :
    ¬ radius ≤ 0 ∧ ¬ endAngle ≤ startAngle ∧ ¬ top - bottom < extrusionTol := by
  unfold ofRanges checkRadius at h
  refine ⟨fun hradius => ?_, fun hangles => ?_, fun hheights => ?_⟩
  · rw [if_pos hradius] at h
    cases h
  · rw [if_pos hangles] at h
    split_ifs at h <;> cases h
  · rw [if_pos hheights] at h
    split_ifs at h <;> cases h

lemma ofRanges_fault {fault : Fault α}
    (h : Cylinder.ofRanges center radius startAngle endAngle bottom top = .error fault) :
    fault.isBadValue = true := by
  unfold ofRanges checkRadius at h
  split_ifs at h <;> cases h <;> rfl

end Cylinder

/-- Corners whose normal is no shorter than the tolerance are never divided by zero. -/
lemma Plane.ofCorners_fault {α : Type} [Add α] [Sub α] [Mul α] [Div α] [LT α] [DecidableLT α]
    [BEq α] [OfNat α 0] [OfNat α 1] [OfScientific α] [Elementary α] [LawfulZero α] {q : Quad α}
    {fault : Fault α} (h : Plane.ofCorners q coincidentTol = .error fault) :
    fault.isBadValue = true := by
  unfold ofCorners at h
  by_cases hsmall : q.normalSum.mag < coincidentTol
  · rw [if_pos hsmall] at h
    cases h
    rfl
  · have hzero : ¬ (q.normalSum.mag == 0) = true :=
      fun hzero => hsmall (LawfulZero.lt_coincidentTol hzero)
    rw [if_neg hsmall, quotient, if_neg hzero] at h
    dsimp only [bind, Except.bind] at h
    split_ifs at h <;> cases h
    rfl

section Corners

variable {α : Type} [Add α] [Sub α] [Mul α] [Div α] [LT α] [DecidableLT α] [BEq α] [OfNat α 0]
  [OfNat α 1] [OfScientific α] [Elementary α] {q : Quad α} {tol : α} {p : Plane α}

/-- A plane through four corners, and the checks that were made before. -/
structure Plane.Checked (p : Plane α) (q : Quad α) (tol : α) : Prop where
  corners_eq : p.corners = q
  spans : ¬ q.normalSum.mag < tol
  normal_eq : ∃ k, (quotient 1 q.normalSum.mag : Except (Fault α) α) = .ok k ∧
    p.normal = q.normalSum.scale k
  flat : ∀ corner ∈ [q.second, q.third, q.fourth],
    ¬ tol < Elementary.abs ((corner.sub q.first).dot p.normal)
  area_eq : p.area = 0.5 * q.normalSum.mag

/-- **Which planes are accepted**, in any arithmetic. -/
lemma Plane.ofCorners_eq_ok_iff : Plane.ofCorners q tol = .ok p ↔ p.Checked q tol := by
  unfold ofCorners
  by_cases hsize : q.normalSum.mag < tol
  · rw [if_pos hsize]
    exact ⟨fun h => (by cases h), fun h => absurd hsize h.spans⟩
  · rw [if_neg hsize]
    cases hk : (quotient 1 q.normalSum.mag : Except (Fault α) α) with
    | error e =>
        refine ⟨fun h => (by cases h), fun h => ?_⟩
        obtain ⟨k, hk', -⟩ := h.normal_eq
        cases hk.symm.trans hk'
    | ok k =>
        dsimp only [bind, Except.bind]
        constructor
        · intro h
          split_ifs at h with hheights
          cases h
          refine ⟨rfl, hsize, ⟨k, hk, rfl⟩, fun corner hcorner hfar => hheights ?_, rfl⟩
          exact List.any_eq_true.mpr ⟨corner, hcorner, decide_eq_true hfar⟩
        · rintro ⟨hcorners, -, ⟨k', hk', hnormal⟩, hflat, harea⟩
          obtain rfl := Except.ok.inj (hk.symm.trans hk')
          rw [hnormal] at hflat
          rw [if_neg]
          · rw [← hnormal, ← harea, ← hcorners]
            rfl
          · intro hany
            obtain ⟨corner, hcorner, hfar⟩ := List.any_eq_true.mp hany
            exact hflat corner hcorner (of_decide_eq_true hfar)

end Corners

/-! ## Points and normals -/

section Evaluation

variable {α : Type} [Add α] [Mul α] [Elementary α]

/-- Every point of a cylinder lies at the height that was asked for. -/
lemma Cylinder.height_of_evaluate {c : Cylinder α} {u v : α} {p : Point α}
    (h : c.evaluate u v = .ok p) : p.z = v := by
  rw [evaluate] at h
  cases hpolar : c.center.polar c.radius u with
  | error e =>
      rw [hpolar] at h
      cases h
  | ok q =>
      rw [hpolar] at h
      obtain rfl : q.withZ v = p := Except.ok.inj h
      rfl

namespace Shape

variable {s : Shape α} {u : α}

/-- A flat shape has points everywhere, a cylinder at angles that are not infinite. -/
def HasPointsAt (s : Shape α) (u : α) : Prop := s.isPlane = true ∨ Elementary.isInfinite u = false

instance : Decidable (s.HasPointsAt u) := inferInstanceAs (Decidable (_ ∨ _))

variable [Sub α]

lemma evaluate_error (h : ¬ s.HasPointsAt u) (v : α) :
    s.evaluate u v = .error (.badValue .outsideDomain) := by
  cases s with
  | plane p => exact absurd (.inl rfl) h
  | cylinder c =>
      have hinfinite : Elementary.isInfinite u = true := by
        simpa [HasPointsAt, isPlane] using h
      have hcos : (cosine u : Except (Fault α) α) = .error (.badValue .outsideDomain) :=
        if_pos hinfinite
      rw [evaluate, Cylinder.evaluate, Point.polar, hcos]
      rfl

lemma evaluate_ok [OfNat α 0] (h : s.HasPointsAt u) (v : α) :
    (∃ p, s.evaluate u v = .ok p) ∧ ∃ q, s.normalAt u v = .ok q := by
  cases s with
  | plane p => exact ⟨⟨_, rfl⟩, _, rfl⟩
  | cylinder c =>
      have hfinite : ¬ Elementary.isInfinite u = true := by
        simpa [HasPointsAt, isPlane] using h
      have hcos : (cosine u : Except (Fault α) α) = .ok (Elementary.cos u) := if_neg hfinite
      have hsin : (sine u : Except (Fault α) α) = .ok (Elementary.sin u) := if_neg hfinite
      constructor
      · rw [evaluate, Cylinder.evaluate, Point.polar, hcos, hsin]
        exact ⟨_, rfl⟩
      · rw [normalAt, Cylinder.normalAt, hcos, hsin]
        exact ⟨_, rfl⟩

end Shape

end Evaluation

end Contour
