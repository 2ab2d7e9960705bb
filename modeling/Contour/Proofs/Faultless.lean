import Contour.Operand
import Contour.Proofs.Exchange
import Contour.Proofs.OwnSamples
import Contour.Proofs.ReportedPoints

/-!
# No fault of arithmetic

A quotient fails if its divisor is zero.  A square root never fails, but means nothing below zero.
Neither happens on segments that were constructed: each divisor is protected, mostly far from where it
divides, and each root is that of a number that is not negative.

A root that is never asked for below zero may return anything there.  So the kernel is run with such a
root in place of the square root, and gives the same results.

* `Segment.Divisor`, `Divisor.ne_zero` — the divisors that are met, and that none of them is zero.
* `Segment.Radicand`, `Radicand.nonneg` — the numbers of which a root is taken.
* `Segment.intersect_ok` — an intersection of constructed segments has a result.
* `IsRoot`, `Elementary.withRoot`, `Widening.withRoot` — the kernel over `ℝ` with another root.
* `IsRoot.mag`, `IsRoot.crossings`, `IsRoot.roots` — the three places where a root is taken;
  `IsRoot.intersect` and `IsRoot.contains` carry them to the segments.
* `Operand.Returns`, `Operand.returns_of_built` — all operations return, whatever the root is below
  zero.
-/

namespace Contour

/-! ## Divisors -/

namespace Segment

/-- **The divisors** that the operations on two segments meet, in either order of the two: the
squared length in the foot of a point, the length of a line, the radius that turns a tolerance into
an angle, twice the leading coefficient of a line and a circle, the cross product of two lines that
do not pass for parallel, and the distance between the centers of circles that cross. -/
inductive Divisor (tol radiusTol : ℝ) : Segment ℝ → Segment ℝ → ℝ → Prop
  | squaredLength (l : Line ℝ) (t : Segment ℝ) :
      Divisor tol radiusTol (line l) t (l.along.dot l.along)
  | length (l : Line ℝ) (t : Segment ℝ) : Divisor tol radiusTol (line l) t l.along.mag
  | radius (c : Curve ℝ) (t : Segment ℝ) : Divisor tol radiusTol (curve c) t c.radius
  | quadratic (l : Line ℝ) (c : Curve ℝ) :
      Divisor tol radiusTol (line l) (curve c) (2 * (Quadratic.ofLine l c.center c.radius).a)
  | cross (a b : Line ℝ)
      (h : ¬ Elementary.abs (a.along.crossXY b.along) ≤ tol * a.along.mag * b.along.mag) :
      Divisor tol radiusTol (line a) (line b) (a.along.crossXY b.along)
  | centers (c d : Curve ℝ) (h : c.support.position d.support radiusTol = .crossing) :
      Divisor tol radiusTol (curve c) (curve d) (c.center.dist d.center)
  | exchange {s t : Segment ℝ} {x : ℝ} (h : Divisor tol radiusTol s t x) :
      Divisor tol radiusTol t s x

/-- **The numbers of which a root is taken**, in either order of the two segments: the squared length
of a displacement, the squared height of two crossing points, cut off at zero, and the discriminant
of a line and a circle that neither touch nor miss each other. -/
inductive Radicand (radiusTol : ℝ) : Segment ℝ → Segment ℝ → ℝ → Prop
  | squaredLength (d : Point ℝ) (s t : Segment ℝ) : Radicand radiusTol s t (d.dot d)
  | squaredHeight (c d : Curve ℝ) (along : ℝ) :
      Radicand radiusTol (curve c) (curve d) (Scalar.larger (c.radius * c.radius - along * along) 0)
  | discriminant (l : Line ℝ) (c : Curve ℝ)
      (htangent : ¬ (Quadratic.ofLine l c.center c.radius).isTangent radiusTol = true)
      (hmiss : ¬ (Quadratic.ofLine l c.center c.radius).discriminant < 0) :
      Radicand radiusTol (line l) (curve c) (Quadratic.ofLine l c.center c.radius).discriminant
  | exchange {s t : Segment ℝ} {x : ℝ} (h : Radicand radiusTol s t x) : Radicand radiusTol t s x

variable {s t : Segment ℝ} {tol radiusTol : ℝ}

lemma Radicand.nonneg {x : ℝ} (h : Radicand radiusTol s t x) : 0 ≤ x := by
  induction h with
  | squaredLength d => exact d.dot_self_nonneg
  | squaredHeight c d along =>
      rw [larger_eq_max]
      exact le_max_right _ _
  | discriminant l c _ hmiss => exact le_of_not_gt (α := ℝ) hmiss
  | exchange _ ih => exact ih

/-- **No divisor is zero.** -/
lemma Divisor.ne_zero (hs : s.Built) (ht : t.Built) (htol : 0 ≤ tol) (hradius : 0 < radiusTol) {x : ℝ}
    (h : Divisor tol radiusTol s t x) : x ≠ 0 := by
  induction h with
  | squaredLength l =>
      rw [← Point.mag_mul_self]
      exact (mul_pos (hs.line.mag_pos coincidentTol_pos.le) (hs.line.mag_pos coincidentTol_pos.le)).ne'
  | length l => exact (hs.line.mag_pos coincidentTol_pos.le).ne'
  | radius c => exact hs.support.radius_pos.ne'
  | quadratic l c =>
      exact mul_ne_zero two_ne_zero (Line.lead_pos hs.line coincidentTol_pos.le).ne'
  | cross a b h => exact Line.skew_ne_zero htol h
  | centers c d h =>
      -- circles that cross are not inside each other, so their centers are apart
      have hplaced := Circle.placed c.support d.support hradius
      rw [h] at hplaced
      cases hplaced with
      | crossing hlow _ => exact ((abs_nonneg _).trans_lt hlow).ne'
  | exchange _ ih => exact ih ht hs

end Segment

/-! ## Intersections have results -/

lemma Line.intersect_ok {a b : Line ℝ} (ha : (Segment.line a).Built) (hb : (Segment.line b).Built)
    {tol : ℝ} (htol : 0 ≤ tol) : ∃ r, a.intersect b tol = .ok r := by
  have hmagA := (ha.line.mag_pos coincidentTol_pos.le).ne'
  have hmagB := (hb.line.mag_pos coincidentTol_pos.le).ne'
  by_cases hparallel : a.PassesForParallel b tol
  · obtain ⟨r, hr, -⟩ := intersectParallel_shares hmagA b tol
    exact ⟨r, (intersect_of_parallel hparallel).trans hr⟩
  · rw [intersect_of_not_parallel hparallel]
    rcases intersectCrossing_cases hmagA hmagB (skew_ne_zero htol hparallel) tol with
      ⟨-, -, hr⟩ | ⟨-, hr⟩
    · exact ⟨_, hr⟩
    · exact ⟨_, hr⟩

namespace Curve

variable {c d : Curve ℝ} {radiusTol : ℝ}

lemma intersectSame_ok (c d : Curve ℝ) (tol : ℝ) : ∃ r, c.intersectSame d tol = .ok r := by
  cases c with
  | circle k => exact ⟨_, rfl⟩
  | arc a =>
      cases d with
      | circle k => exact ⟨_, rfl⟩
      | arc b =>
          have hpoint : ∀ (run : Arc.Run ℝ) (angle : ℝ),
              ∃ p, a.pointAt b run.shift angle tol = .ok p ∧ True := fun run angle =>
            (Arc.pointAt_ok a b run.shift angle tol).imp fun _ hp => ⟨hp, trivial⟩
          obtain ⟨r, hr, -⟩ := Arc.overlap_spec (fun run _ angle _ => hpoint run angle)
            fun run _ _ => hpoint run run.middle
          exact ⟨r, hr⟩

lemma intersectArcs_ok (hc : (Segment.curve c).Built) (hd : (Segment.curve d).Built)
    (hradius : 0 < radiusTol) (tol : ℝ) : ∃ r, c.intersectArcs d tol radiusTol = .ok r := by
  by_cases hsame : c.support.same d.support radiusTol = true
  · obtain ⟨r, hr⟩ := intersectSame_ok c d tol
    exact ⟨r, (if_pos hsame).trans hr⟩
  · obtain ⟨r, hr, -⟩ := intersectArcs_on hc.made hd.made hradius hsame tol
    exact ⟨r, hr⟩

lemma intersect_ok (hc : (Segment.curve c).Built) (hd : (Segment.curve d).Built)
    (hradius : 0 < radiusTol) (tol : ℝ) : ∃ r, c.intersect d tol radiusTol = .ok r := by
  cases c with
  | arc a => exact intersectArcs_ok hc hd hradius tol
  | circle k =>
      cases d with
      | arc b => exact intersectArcs_ok hc hd hradius tol
      | circle k' =>
          obtain ⟨r, hr, -⟩ := Circle.intersect_on hc.support hd.support hradius
          exact ⟨r, hr⟩

end Curve

namespace Segment

variable {s t : Segment ℝ} {tol radiusTol : ℝ}

/-- **Constructed segments have an intersection** under all tolerances. -/
lemma intersect_ok (hs : s.Built) (ht : t.Built) (htol : 0 ≤ tol) (hradius : 0 < radiusTol) :
    ∃ r, s.intersect t tol radiusTol = .ok r := by
  have hmixed : ∀ {l : Line ℝ} {c : Curve ℝ}, Built (line l) → Built (curve c) →
      ∃ r, l.intersectCurve c tol radiusTol = .ok r := by
    intro l c hl hc
    obtain ⟨r, hr, -⟩ := Line.intersectCurve_ok hl.line coincidentTol_pos.le hc.support tol radiusTol
    exact ⟨r, hr⟩
  cases s with
  | line a =>
      cases t with
      | line b => exact Line.intersect_ok hs ht htol
      | curve d => exact hmixed hs ht
  | curve c =>
      cases t with
      | line b => exact hmixed ht hs
      | curve d => exact Curve.intersect_ok hs ht hradius tol

lemma contains_ok (hs : s.Built) (p : Point ℝ) (tol : ℝ) : ∃ accepted, s.contains p tol = .ok accepted := by
  cases s with
  | line l => exact Line.contains_ok (hs.line.mag_pos coincidentTol_pos.le).ne' p tol
  | curve c =>
      show ∃ accepted, c.contains p tol = .ok accepted
      rw [Curve.contains, Curve.covers_eq hs.support]
      exact ⟨_, (apply_ite Except.ok _ _ _).symm⟩

lemma sample_ok (s : Segment ℝ) (u : ℝ) : ∃ p, s.sample u = .ok p := by
  cases s with
  | line l => exact ⟨_, rfl⟩
  | curve c => exact ⟨_, Point.polar_eq _ _ _⟩

end Segment

/-! ## Roots that mean nothing below zero -/

/-- The square root where there is one, and anything below zero. -/
def IsRoot (root : ℝ → ℝ) : Prop := ∀ x, 0 ≤ x → root x = √x

/-- The elementary functions of the real numbers, with another square root. -/
noncomputable abbrev Elementary.withRoot (root : ℝ → ℝ) : Elementary ℝ :=
  { (inferInstance : Elementary ℝ) with sqrt := root }

/-- The real numbers as their own wide type, with another square root. -/
noncomputable abbrev Widening.withRoot (root : ℝ → ℝ) : Widening ℝ where
  Wide := ℝ
  widen := id
  narrow := id
  sqrt := root

section WithRoot

variable (root : ℝ → ℝ)

lemma Angle.unwrapAfter_withRoot (angle start : ℝ) :
    unwrapAfter angle start = letI := Elementary.withRoot root; unwrapAfter angle start := by
  have hraise : ∀ (limit : ℕ) (angle : ℝ),
      raise start limit angle = letI := Elementary.withRoot root; raise start limit angle := by
    intro limit
    induction limit with
    | zero => exact fun _ => rfl
    | succ limit ih =>
        intro angle
        unfold raise
        rw [ih]
        rfl
  unfold unwrapAfter
  rw [hraise]
  rfl

lemma Arc.runs_withRoot (a b : Arc ℝ) (tol : ℝ) :
    a.runs b tol = letI := Elementary.withRoot root; a.runs b tol := by
  unfold Arc.runs
  rw [Angle.unwrapAfter_withRoot root]
  rfl

lemma Curve.orderAlong_withRoot (c : Curve ℝ) (points : List (Point ℝ)) :
    c.orderAlong points = letI := Elementary.withRoot root; c.orderAlong points := by
  unfold Curve.orderAlong
  simp only [Angle.unwrapAfter_withRoot root]
  rfl

lemma Curve.select_withRoot (c : Curve ℝ) (points : List (Point ℝ)) (tol : ℝ) :
    c.select points tol = letI := Elementary.withRoot root; c.select points tol := by
  cases c with
  | circle k => rfl
  | arc a =>
      unfold Curve.select
      simp only [Curve.orderAlong_withRoot root]
      rfl

end WithRoot

namespace IsRoot

variable {root : ℝ → ℝ} (h : IsRoot root)

include h

lemma mag (a : Point ℝ) : a.mag = letI := Elementary.withRoot root; a.mag :=
  (h _ a.dot_self_nonneg).symm

lemma dist (a b : Point ℝ) : a.dist b = letI := Elementary.withRoot root; a.dist b := h.mag _

/-! ### Two lines -/

lemma intersectParallel (a b : Line ℝ) (tol : ℝ) :
    a.intersectParallel b tol = letI := Elementary.withRoot root; a.intersectParallel b tol := by
  unfold Line.intersectParallel
  simp only [h.mag]
  rfl

lemma intersectCrossing (a b : Line ℝ) (tol : ℝ) :
    a.intersectCrossing b tol = letI := Elementary.withRoot root; a.intersectCrossing b tol := by
  unfold Line.intersectCrossing
  simp only [h.mag]

lemma intersectLines (a b : Line ℝ) (tol : ℝ) :
    a.intersect b tol = letI := Elementary.withRoot root; a.intersect b tol := by
  unfold Line.intersect
  rw [h.mag, h.mag, h.intersectParallel, h.intersectCrossing]
  rfl

/-! ### A line and a curve -/

/-- The roots of a quadratic are only computed if its discriminant is not negative. -/
lemma roots (l : Line ℝ) (center : Point ℝ) (radius : ℝ)
    (hdiscriminant : ¬ (Quadratic.ofLine l center radius).discriminant < 0) :
    (Quadratic.ofLine l center radius).roots
      = letI := Elementary.withRoot root
        letI := Widening.withRoot root
        (Quadratic.ofLine l center radius).roots := by
  have hroot : Widening.sqrt (Quadratic.ofLine l center radius).discriminant
      = letI := Widening.withRoot root
        Widening.sqrt (Quadratic.ofLine l center radius).discriminant :=
    (h _ (le_of_not_gt (α := ℝ) hdiscriminant)).symm
  unfold Quadratic.roots
  rw [hroot]
  rfl

lemma intersectCurve (l : Line ℝ) (c : Curve ℝ) (tol radiusTol : ℝ) :
    l.intersectCurve c tol radiusTol
      = letI := Elementary.withRoot root
        letI := Widening.withRoot root
        l.intersectCurve c tol radiusTol := by
  unfold Line.intersectCurve
  refine if_congr Iff.rfl rfl ?_
  by_cases hnegative : (Quadratic.ofLine l c.center c.radius).discriminant < 0
  · exact (if_pos hnegative).trans (if_pos hnegative).symm
  · refine (if_neg hnegative).trans (Eq.trans ?_ (if_neg hnegative).symm)
    rw [h.roots l c.center c.radius hnegative]
    simp only [Curve.select_withRoot root]

/-! ### Two curves -/

lemma position (a b : Circle ℝ) (radiusTol : ℝ) :
    a.position b radiusTol = letI := Elementary.withRoot root; a.position b radiusTol := by
  unfold Circle.position
  rw [h.dist]
  rfl

/-- The square of the height of two crossing points is cut off at zero before its root is taken. -/
lemma crossings (a b : Circle ℝ) :
    a.crossings b = letI := Elementary.withRoot root; a.crossings b := by
  have hheight : ∀ x : ℝ, Elementary.sqrt (Scalar.larger x 0)
      = letI := Elementary.withRoot root; Elementary.sqrt (Scalar.larger x 0) := by
    intro x
    refine (h _ ?_).symm
    rw [larger_eq_max]
    exact le_max_right x 0
  unfold Circle.crossings
  simp only [h.dist, hheight]
  rfl

lemma intersectCircles (a b : Circle ℝ) (radiusTol : ℝ) :
    a.intersect b radiusTol = letI := Elementary.withRoot root; a.intersect b radiusTol := by
  unfold Circle.intersect
  rw [h.position, h.crossings]

lemma touching (a b : Arc ℝ) (runs : List (Arc.Run ℝ)) (tol : ℝ) :
    a.touching b runs tol = letI := Elementary.withRoot root; a.touching b runs tol := by
  unfold Arc.touching
  simp only [h.dist]
  rfl

lemma overlap (a b : Arc ℝ) (tol : ℝ) :
    a.overlap b tol = letI := Elementary.withRoot root; a.overlap b tol := by
  unfold Arc.overlap
  simp only [h.touching, Arc.runs_withRoot root, Curve.orderAlong_withRoot root]
  rfl

lemma intersectSame (c d : Curve ℝ) (tol : ℝ) :
    c.intersectSame d tol = letI := Elementary.withRoot root; c.intersectSame d tol := by
  cases c with
  | circle k => rfl
  | arc a =>
      cases d with
      | circle k => rfl
      | arc b => exact h.overlap a b tol

lemma intersectArcs (c d : Curve ℝ) (tol radiusTol : ℝ) :
    c.intersectArcs d tol radiusTol
      = letI := Elementary.withRoot root; c.intersectArcs d tol radiusTol := by
  unfold Curve.intersectArcs
  simp only [h.intersectSame, h.position, h.crossings, Curve.orderAlong_withRoot root]
  rfl

lemma intersectCurves (c d : Curve ℝ) (tol radiusTol : ℝ) :
    c.intersect d tol radiusTol
      = letI := Elementary.withRoot root; c.intersect d tol radiusTol := by
  cases c with
  | arc a => exact h.intersectArcs _ _ _ _
  | circle k =>
      cases d with
      | arc b => exact h.intersectArcs _ _ _ _
      | circle k' => exact h.intersectCircles k k' radiusTol

/-! ### Two segments -/

/-- **Intersections take no root below zero.** -/
lemma intersect (s t : Segment ℝ) (tol radiusTol : ℝ) :
    s.intersect t tol radiusTol
      = letI := Elementary.withRoot root
        letI := Widening.withRoot root
        s.intersect t tol radiusTol := by
  cases s with
  | line a =>
      cases t with
      | line b => exact h.intersectLines a b tol
      | curve d => exact h.intersectCurve a d tol radiusTol
  | curve c =>
      cases t with
      | line b => exact h.intersectCurve b c tol radiusTol
      | curve d => exact h.intersectCurves c d tol radiusTol

lemma contains (s : Segment ℝ) (p : Point ℝ) (tol : ℝ) :
    s.contains p tol = letI := Elementary.withRoot root; s.contains p tol := by
  cases s with
  | line l =>
      show l.contains p tol = letI := Elementary.withRoot root; l.contains p tol
      unfold Line.contains
      simp only [h.dist]
  | curve c =>
      show c.contains p tol = letI := Elementary.withRoot root; c.contains p tol
      unfold Curve.contains
      rw [h.dist]
      rfl

lemma length (s : Segment ℝ) : s.length = letI := Elementary.withRoot root; s.length := by
  cases s with
  | line l => exact h.dist l.start l.stop
  | curve c => rfl

end IsRoot

/-! ## The operations return -/

namespace Operand

/-- What the operations return on two operands. -/
structure Values (α : Type) where
  length : α
  sample : Point α
  reverse : Segment α
  contains : Bool
  box : Box α
  intersection : Intersection α

/-- **All operations return**, and what they return.  Those that could report a refusal report
nothing. -/
structure Returns {α : Type} [Add α] [Sub α] [Mul α] [Div α] [Neg α] [LT α] [LE α] [DecidableLT α]
    [DecidableLE α] [BEq α] [OfNat α 0] [OfNat α 1] [OfNat α 2] [OfScientific α] [E : Elementary α]
    [W : Widening α] (a b : Operand α) (u : α) (p : Point α) (tol radiusTol : α) (v : Values α) :
    Prop where
  length : a.length = .ok v.length
  sample : a.sample (.real u) = .ok v.sample
  reverse : a.reverse = .ok v.reverse
  contains [Textual α] : a.contains (.point p) tol = .ok v.contains
  box (log : Log α) : a.box tol log = (.ok v.box, log)
  intersect (log : Log α) : a.intersect b tol radiusTol log = (.ok v.intersection, log)

/-- **No fault of arithmetic.**  On constructed segments no divisor is zero and no root is taken below
zero; every operation returns, and the same whatever the root of a negative number is said to be. -/
theorem returns_of_built {s t : Segment ℝ} (hs : s.Built) (ht : t.Built) (u : ℝ) (p : Point ℝ)
    {tol radiusTol : ℝ} (htol : 0 ≤ tol) (hradius : 0 < radiusTol) :
    (∀ x, Segment.Divisor tol radiusTol s t x → x ≠ 0) ∧
    (∀ x, Segment.Radicand radiusTol s t x → 0 ≤ x) ∧
    ∃ v : Values ℝ, Returns (.segment s) (.segment t) u p tol radiusTol v ∧
      ∀ root, IsRoot root →
        Returns (E := .withRoot root) (W := .withRoot root) (.segment s) (.segment t) u p tol
          radiusTol v := by
  refine ⟨fun x hx => hx.ne_zero hs ht htol hradius, fun x hx => hx.nonneg, ?_⟩
  obtain ⟨q, hq⟩ := s.sample_ok u
  obtain ⟨accepted, haccepted⟩ := Segment.contains_ok hs p tol
  obtain ⟨r, hr⟩ := Segment.intersect_ok hs ht htol hradius
  -- the square root itself is one of the roots
  suffices hroots : ∀ root, IsRoot root → Returns (E := .withRoot root) (W := .withRoot root)
      (.segment s) (.segment t) u p tol radiusTol
      ⟨s.length, q, s.reverse, accepted, s.box tol, r⟩ from
    ⟨_, hroots Real.sqrt fun _ _ => rfl, hroots⟩
  intro root hroot
  have hintersect := (hroot.intersect s t tol radiusTol).symm.trans hr
  let _ : Elementary ℝ := .withRoot root
  let _ : Widening ℝ := .withRoot root
  exact {
    length := congrArg Except.ok (hroot.length s).symm
    sample := hq
    reverse := rfl
    contains := (hroot.contains s p tol).symm.trans haccepted
    box := fun log => rfl
    intersect := fun log => congrArg (fun result => logged result log) hintersect }

/-- A line that starts at the center of a circle and leaves it.  No tolerance is needed for points. -/
theorem returns_of_built_leaving :
    Segment.Built (.line (Line.fromOrigin 10)) ∧
    Segment.Built (.curve (.circle (Line.aboutOrigin 5))) ∧
    ∃ v : Values ℝ, Returns (.segment (.line (Line.fromOrigin 10)))
      (.segment (.curve (.circle (Line.aboutOrigin 5)))) 2 ⟨5, 0, 0⟩ 0 1 v := by
  have hl : Segment.Built (.line (Line.fromOrigin 10)) :=
    Line.built_fromOrigin (by rw [coincidentTol_eq]; norm_num)
  have hc : Segment.Built (.curve (.circle (Line.aboutOrigin 5))) :=
    Line.built_aboutOrigin (by rw [coincidentTol_eq]; norm_num)
  obtain ⟨-, -, v, hreturns, -⟩ := returns_of_built hl hc 2 ⟨5, 0, 0⟩ le_rfl one_pos
  exact ⟨hl, hc, v, hreturns⟩

end Operand

end Contour
