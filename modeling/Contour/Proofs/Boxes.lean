import Contour.Proofs.ReportedPoints
import Contour.Proofs.Sweep

/-!
# What a box contains

A caller may compare the boxes of two segments before intersecting them.  That loses nothing only if
every point of an intersection lies in both boxes, although the points on an arc may lie a little
beyond its ends, and the box of an upright line has the ends of the line for corners, which need not
be its least and greatest.

* `Box.Holds` — a point lies in a box up to a slack; `Box.holds_ofPoints` says so of the points that
  a box is made from.
* `exists_max_of_hasDerivAt` — where a differentiable function is largest on an interval.
* `Arc.Drawn` — arcs between the points of their circles at their two angles.
* `Arc.Drawn.exists_extreme` — along each axis an end or an extreme point is at least as far out as
  any point of an arc.
* `Line.holds_trace`, `Circle.holds_outline`, `Arc.Drawn.holds_around` — the boxes of the three kinds.
* `Segment.intersect_boxed` — the points of an intersection are in both boxes.
-/

namespace Contour

open Real (pi)

/-! ## Boxes of points -/

namespace Box

variable {b : Box ℝ} {p q : Point ℝ} {slack : ℝ}

/-- A point lies in a box that is larger by a slack on every side. -/
structure Holds (b : Box ℝ) (slack : ℝ) (p : Point ℝ) : Prop where
  left : b.least.x - slack ≤ p.x
  right : p.x ≤ b.greatest.x + slack
  below : b.least.y - slack ≤ p.y
  above : p.y ≤ b.greatest.y + slack

lemma contains_iff : b.contains p slack = true ↔ b.Holds slack p := by
  simp only [contains, Bool.and_eq_true, decide_eq_true_eq]
  exact ⟨fun ⟨⟨hl, hr⟩, hb, ha⟩ => ⟨hl, hr, hb, ha⟩, fun ⟨hl, hr, hb, ha⟩ => ⟨⟨hl, hr⟩, hb, ha⟩⟩

/-- What is near a point of a box is in a box that is larger by the distance. -/
lemma Holds.near (h : b.Holds slack q) {ε : ℝ} (hnear : p.dist q ≤ ε) : b.Holds (slack + ε) p := by
  have hagrees := Point.agrees_of_dist_le hnear
  simp only [Point.agrees, elementary_abs, Bool.and_eq_true, decide_eq_true_eq, abs_le] at hagrees
  obtain ⟨⟨⟨hx, hx'⟩, hy, hy'⟩, -⟩ := hagrees
  constructor <;> linarith [h.left, h.right, h.below, h.above]

lemma Holds.mono (h : b.Holds slack p) {slack' : ℝ} (hle : slack ≤ slack') : b.Holds slack' p := by
  constructor <;> linarith [h.left, h.right, h.below, h.above]

/-- A fold that keeps one of two numbers, the one that is related to the other, ends with a number
that is related to all of them.  Only what satisfies `N` need be related to itself. -/
lemma rel_foldl {α : Type} {f : α → α → α} {N : α → Prop} {R : α → α → Prop} [IsTrans α R]
    (hrefl : ∀ x, N x → R x x) (hkeep : ∀ x y, N x → N (f x y)) (hfirst : ∀ x y, N x → R (f x y) x)
    (hsecond : ∀ x y, N x → N y → R (f x y) y) {x : α} (hx : N x) (xs : List α) :
    ∀ y ∈ x :: xs, N y → R (xs.foldl f x) y := by
  induction xs generalizing x with
  | nil => exact fun y hy _ => List.mem_singleton.mp hy ▸ hrefl x hx
  | cons z rest ih =>
      intro y hy hnum
      have hkept : R (rest.foldl f (f x z)) (f x z) :=
        ih (hkeep x z hx) _ List.mem_cons_self (hkeep x z hx)
      rcases List.mem_cons.mp hy with rfl | hy
      · exact IsTrans.trans _ _ _ hkept (hfirst _ _ hx)
      · rcases List.mem_cons.mp hy with rfl | hy
        · exact IsTrans.trans _ _ _ hkept (hsecond _ _ hx hnum)
        · exact ih (hkeep x z hx) y (List.mem_cons_of_mem _ hy) hnum

/-- **The box of some points holds each of them.** -/
lemma holds_ofPoints (p : Point ℝ) (rest : List (Point ℝ)) :
    ∀ q ∈ p :: rest, (ofPoints p rest).Holds 0 q := by
  have hsmaller := @rel_foldl ℝ Scalar.smaller (fun _ => True) (· ≤ ·) _ (fun x _ => le_refl x)
    (fun _ _ _ => trivial) (fun x y _ => by rw [smaller_eq_min]; exact min_le_left x y)
    (fun x y _ _ => by rw [smaller_eq_min]; exact min_le_right x y)
  have hlarger := @rel_foldl ℝ Scalar.larger (fun _ => True) (· ≥ ·) _ (fun x _ => le_refl x)
    (fun _ _ _ => trivial) (fun x y _ => by rw [larger_eq_max]; exact le_max_left x y)
    (fun x y _ _ => by rw [larger_eq_max]; exact le_max_right x y)
  intro q hq
  have hx : q.x ∈ p.x :: rest.map Point.x := List.mem_map_of_mem (f := Point.x) hq
  have hy : q.y ∈ p.y :: rest.map Point.y := List.mem_map_of_mem (f := Point.y) hq
  constructor
  · rw [sub_zero]; exact hsmaller trivial _ _ hx trivial
  · rw [add_zero]; exact hlarger trivial _ _ hx trivial
  · rw [sub_zero]; exact hsmaller trivial _ _ hy trivial
  · rw [add_zero]; exact hlarger trivial _ _ hy trivial

end Box

/-! ## Lines and circles -/

lemma lerp_mem_Icc {low high x y t : ℝ} (hx : x ∈ Set.Icc low high) (hy : y ∈ Set.Icc low high)
    (h0 : 0 ≤ t) (h1 : t ≤ 1) : x + t * (y - x) ∈ Set.Icc low high := by
  have hmem := convex_Icc low high hx hy (sub_nonneg.mpr h1) h0 (by ring)
  rwa [smul_eq_mul, smul_eq_mul, show (1 - t) * x + t * y = x + t * (y - x) by ring] at hmem

/-- A box that holds two points holds what is between them. -/
lemma Box.Holds.lerp {b : Box ℝ} {p q : Point ℝ} {slack t : ℝ} (hp : b.Holds slack p)
    (hq : b.Holds slack q) (h0 : 0 ≤ t) (h1 : t ≤ 1) : b.Holds slack (p.lerp q t) := by
  obtain ⟨hleft, hright⟩ := lerp_mem_Icc ⟨hp.left, hp.right⟩ ⟨hq.left, hq.right⟩ h0 h1
  obtain ⟨hbelow, habove⟩ := lerp_mem_Icc ⟨hp.below, hp.above⟩ ⟨hq.below, hq.above⟩ h0 h1
  exact ⟨hleft, hright, hbelow, habove⟩

namespace Line

variable {l : Line ℝ} {tol : ℝ}

/-- The box of a line holds its ends.  The corners of an upright line may be out of order from left to
right, but by less than the tolerance. -/
lemma holds_ends (htol : 0 ≤ tol) : (l.box tol).Holds tol l.start ∧ (l.box tol).Holds tol l.stop := by
  unfold box
  split_ifs with hupright hdown
  · obtain ⟨hlow, hhigh⟩ := abs_lt.mp hupright
    constructor <;> constructor <;> dsimp only <;> linarith
  · obtain ⟨hlow, hhigh⟩ := abs_lt.mp hupright
    rw [not_lt] at hdown
    constructor <;> constructor <;> dsimp only <;> linarith
  · have hholds := Box.holds_ofPoints l.start [l.stop]
    exact ⟨(hholds _ List.mem_cons_self).mono htol,
      (hholds _ (List.mem_cons_of_mem _ List.mem_cons_self)).mono htol⟩

/-- **The box of a line holds its points.** -/
lemma holds_trace (htol : 0 ≤ tol) {p : Point ℝ} (hp : p ∈ l.trace) : (l.box tol).Holds tol p := by
  obtain ⟨t, h0, h1, rfl⟩ := hp
  exact (holds_ends htol).2.lerp (holds_ends htol).1 h0 h1

end Line

/-- **The box of a circle holds its points.** -/
lemma Circle.holds_outline {c : Circle ℝ} (hc : c.Proper) {p : Point ℝ} (hp : p ∈ c.outline) :
    c.box.Holds 0 p := by
  obtain ⟨-, hdist⟩ := (mem_outline_iff hc p).mp hp
  have hx := abs_le.mp (abs_le_of_sq_le_sq (a := p.x - c.center.x) (b := c.radius)
    (by linarith [sq_nonneg (p.y - c.center.y)]) hc.radius_pos.le)
  have hy := abs_le.mp (abs_le_of_sq_le_sq (a := p.y - c.center.y) (b := c.radius)
    (by linarith [sq_nonneg (p.x - c.center.x)]) hc.radius_pos.le)
  constructor <;> simp only [box, Point.planar] <;> linarith [hx.1, hx.2, hy.1, hy.2]

/-! ## Arcs -/

/-- **A differentiable function is largest on an interval at an end or where it is level.** -/
lemma exists_max_of_hasDerivAt {f f' : ℝ → ℝ} {low high : ℝ} (hle : low ≤ high)
    (hf : ∀ x, HasDerivAt f (f' x) x) :
    ∃ x ∈ Set.Icc low high, (x = low ∨ x = high ∨ f' x = 0) ∧ ∀ y ∈ Set.Icc low high, f y ≤ f x := by
  have hcontinuous : Continuous f := continuous_iff_continuousAt.mpr fun x => (hf x).continuousAt
  obtain ⟨x, hx, hmax⟩ :=
    isCompact_Icc.exists_isMaxOn (Set.nonempty_Icc.mpr hle) hcontinuous.continuousOn
  refine ⟨x, hx, ?_, hmax⟩
  by_cases hlow : x = low
  · exact .inl hlow
  by_cases hhigh : x = high
  · exact .inr (.inl hhigh)
  have hinner : Set.Icc low high ∈ nhds x :=
    Icc_mem_nhds (lt_of_le_of_ne hx.1 (Ne.symm hlow)) (lt_of_le_of_ne hx.2 hhigh)
  exact .inr (.inr ((hmax.isLocalMax hinner).hasDerivAt_eq_zero (hf x)))

/-- The displacements along the axes have the directions of their angles, which are the quarters of a
turn. -/
lemma axisDirections_spec : ∀ d ∈ (axisDirections : List (ℝ × ℝ × ℝ)),
    0 ≤ d.1 ∧ d.1 < 2 * pi ∧ d.2.1 = Real.cos d.1 ∧ d.2.2 = Real.sin d.1 ∧
      ∃ k : ℤ, d.1 = k * (pi / 2) := by
  have hpi := Real.pi_pos
  have hhalf : (0.5 : ℝ) * pi = pi / 2 := by ring
  have hthree : (1.5 : ℝ) * pi = pi / 2 + pi := by ring
  intro d hd
  change d ∈ [((0 : ℝ), (1 : ℝ), (0 : ℝ)), (0.5 * pi, 0, 1), (pi, -1, 0), (1.5 * pi, 0, -1)] at hd
  simp only [List.mem_cons, List.not_mem_nil, or_false] at hd
  rcases hd with rfl | rfl | rfl | rfl
  · exact ⟨le_rfl, turn_pos, by simp, by simp, 0, by simp⟩
  · exact ⟨by linarith, by linarith, by simp [hhalf], by simp [hhalf], 1, by push_cast; ring⟩
  · exact ⟨hpi.le, by linarith, by simp, by simp, 2, by push_cast; ring⟩
  · exact ⟨by linarith, by linarith, by simp [hthree, Real.cos_add_pi],
      by simp [hthree, Real.sin_add_pi], 3, by push_cast; ring⟩

/-- Up to whole turns, every quarter of a turn is the angle of an axis. -/
lemma exists_axisDirection (k : ℤ) :
    ∃ d ∈ (axisDirections : List (ℝ × ℝ × ℝ)), ∃ n : ℤ, k * (pi / 2) = d.1 + n * (2 * pi) := by
  have hk : (k : ℝ) = (k % 4 : ℤ) + 4 * (k / 4 : ℤ) := by
    exact_mod_cast (Int.emod_add_mul_ediv k 4).symm
  have hquarter : k % 4 = 0 ∨ k % 4 = 1 ∨ k % 4 = 2 ∨ k % 4 = 3 := by omega
  change ∃ d ∈ [((0 : ℝ), (1 : ℝ), (0 : ℝ)), (0.5 * pi, 0, 1), (pi, -1, 0), (1.5 * pi, 0, -1)], _
  simp only [List.exists_mem_cons_iff]
  rcases hquarter with h | h | h | h <;> rw [h] at hk
  · exact .inl ⟨k / 4, by rw [hk]; push_cast; ring⟩
  · exact .inr (.inl ⟨k / 4, by rw [hk]; push_cast; ring⟩)
  · exact .inr (.inr (.inl ⟨k / 4, by rw [hk]; push_cast; ring⟩))
  · exact .inr (.inr (.inr (.inl ⟨k / 4, by rw [hk]; push_cast; ring⟩)))

namespace Arc

variable {a : Arc ℝ} {θ : ℝ}

/-- An arc of at most a whole turn between the points of its circle at its two angles, whatever its
radius and whichever way it is drawn. -/
structure Drawn (a : Arc ℝ) : Prop where
  neg_pi_le : -pi ≤ a.startAngle
  le_pi : a.startAngle ≤ pi
  start_le_end : a.startAngle ≤ a.endAngle
  end_le_turn : a.endAngle ≤ a.startAngle + 2 * pi
  start_eq : a.start = a.center.around a.radius a.startAngle
  stop_eq : a.stop = a.center.around a.radius a.endAngle

lemma Regular.drawn (h : a.Regular) : a.Drawn :=
  ⟨h.neg_pi_le, h.le_pi, h.start_le_end, h.end_lt_turn.le, h.start_eq, h.stop_eq⟩

/-- Without slack, three turns are enough for every angle up to a turn. -/
lemma Drawn.inRange_of_turns (h : a.Drawn) {φ : ℝ} (h0 : 0 ≤ φ) (hφ : φ < 2 * pi) {n : ℤ}
    (hlow : a.startAngle ≤ φ + n * (2 * pi)) (hhigh : φ + n * (2 * pi) ≤ a.endAngle) :
    Angle.inRange φ a.startAngle a.endAngle 0 = true := by
  have hpi := Real.pi_pos
  have hstart := h.neg_pi_le
  have hstart' := h.le_pi
  have hturn := h.end_le_turn
  have hmono : ∀ {m k : ℤ}, m ≤ k → (m : ℝ) * (2 * pi) ≤ k * (2 * pi) :=
    fun h => mul_le_mul_of_nonneg_right (by exact_mod_cast h) turn_pos.le
  have hbelow : n < 2 := by
    by_contra hge
    have := hmono (not_lt.mp hge)
    push_cast at this
    linarith
  have habove : -2 < n := by
    by_contra hle
    have := hmono (not_lt.mp hle)
    push_cast at this
    linarith
  simp only [Angle.inRange, List.any_cons, List.any_nil, Bool.or_false, Bool.or_eq_true,
    Bool.and_eq_true, decide_eq_true_eq, turn_eq, sub_zero, add_zero]
  obtain rfl | rfl | rfl : n = -1 ∨ n = 0 ∨ n = 1 := by omega
  · exact .inr (.inr (by simpa [sub_eq_add_neg] using And.intro hlow hhigh))
  · exact .inl (by simpa using And.intro hlow hhigh)
  · exact .inr (.inl (by simpa using And.intro hlow hhigh))

/-- The points that an arc has on the axes of its circle are among its extreme points. -/
lemma Drawn.mem_extrema (h : a.Drawn) (hlow : a.startAngle ≤ θ) (hhigh : θ ≤ a.endAngle)
    (hquarter : ∃ k : ℤ, θ = k * (pi / 2)) : (a.center.around a.radius θ).withZ 0 ∈ a.extrema := by
  obtain ⟨k, rfl⟩ := hquarter
  obtain ⟨d, hd, n, hn⟩ := exists_axisDirection k
  obtain ⟨h0, hturn, hcos, hsin, -⟩ := axisDirections_spec d hd
  rw [hn] at hlow hhigh ⊢
  refine List.mem_map.mpr ⟨d, List.mem_filter.mpr ⟨hd, h.inRange_of_turns h0 hturn hlow hhigh⟩, ?_⟩
  rw [Point.around_add_turns, hcos, hsin]
  rfl

/-- How far a point lies from a center along a direction. -/
def outward (center : Point ℝ) (direction : ℝ × ℝ) (p : Point ℝ) : ℝ :=
  (p.x - center.x) * direction.1 + (p.y - center.y) * direction.2

lemma outward_around (center : Point ℝ) (radius θ φ : ℝ) :
    outward center (Real.cos φ, Real.sin φ) (center.around radius θ) = radius * Real.cos (θ - φ) := by
  rw [Real.cos_sub]
  simp only [outward, Point.around]
  ring

/-- **No point of an arc is further out along an axis than its corners**, which are its ends and the
points of its circle on the axes that lie on it. -/
lemma Drawn.exists_extreme (h : a.Drawn) (hlow : a.startAngle ≤ θ) (hhigh : θ ≤ a.endAngle)
    {d : ℝ × ℝ × ℝ} (hd : d ∈ axisDirections) :
    ∃ q ∈ a.start :: a.stop :: a.extrema,
      outward a.center d.2 (a.center.around a.radius θ) ≤ outward a.center d.2 q := by
  obtain ⟨-, -, hcos, hsin, k, hk⟩ := axisDirections_spec d hd
  have hdirection : d.2 = (Real.cos d.1, Real.sin d.1) := Prod.ext hcos hsin
  have haround : ∀ φ, outward a.center d.2 (a.center.around a.radius φ)
      = a.radius * Real.cos (φ - d.1) := fun φ => by rw [hdirection, outward_around]
  -- where it is furthest out, the arc ends or runs across the axis
  obtain ⟨φ, hφ, hcritical, hmax⟩ := exists_max_of_hasDerivAt h.start_le_end fun φ =>
    ((Real.hasDerivAt_cos (φ - d.1)).comp_sub_const φ d.1).const_mul a.radius
  have hout : outward a.center d.2 (a.center.around a.radius θ)
      ≤ outward a.center d.2 (a.center.around a.radius φ) := by
    rw [haround, haround]
    exact hmax θ ⟨hlow, hhigh⟩
  rcases hcritical with rfl | rfl | hlevel
  · exact ⟨a.start, List.mem_cons_self, h.start_eq ▸ hout⟩
  · exact ⟨a.stop, List.mem_cons_of_mem _ List.mem_cons_self, h.stop_eq ▸ hout⟩
  · rcases mul_eq_zero.mp hlevel with hzero | hacross
    · refine ⟨a.start, List.mem_cons_self, ?_⟩
      rw [h.start_eq, haround, haround, hzero, zero_mul, zero_mul]
    · obtain ⟨n, hn⟩ := Real.sin_eq_zero_iff.mp (neg_eq_zero.mp hacross)
      refine ⟨_, List.mem_cons_of_mem _ (List.mem_cons_of_mem _
        (h.mem_extrema hφ.1 hφ.2 ⟨2 * n + k, ?_⟩)), hout⟩
      push_cast
      linarith

/-- **The box of an arc holds its points.** -/
lemma Drawn.holds_around (h : a.Drawn) (hlow : a.startAngle ≤ θ) (hhigh : θ ≤ a.endAngle) :
    a.box.Holds 0 (a.center.around a.radius θ) := by
  have hcorners : ∀ q ∈ a.start :: a.stop :: a.extrema, a.box.Holds 0 q :=
    Box.holds_ofPoints a.start (a.stop :: a.extrema)
  have hextreme := fun d (hd : d ∈ (axisDirections : List (ℝ × ℝ × ℝ))) =>
    h.exists_extreme hlow hhigh hd
  simp only [axisDirections, List.forall_mem_cons, outward] at hextreme
  obtain ⟨⟨right, hright, hx⟩, ⟨top, htop, hy⟩, ⟨left, hleft, hx'⟩, ⟨bottom, hbottom, hy'⟩, -⟩ :=
    hextreme
  constructor
  · linarith [(hcorners left hleft).left]
  · linarith [(hcorners right hright).right]
  · linarith [(hcorners bottom hbottom).below]
  · linarith [(hcorners top htop).above]

end Arc

/-! ## Points of an intersection -/

/-- The box of a curve holds every point of its circle in a direction that the curve spans. -/
lemma Curve.holds_of_spans {c : Curve ℝ} (hc : (Segment.curve c).Built) (hlevel : c.EndsLevel)
    {p : Point ℝ} {tol : ℝ} (htol : 0 ≤ tol) (hp : p ∈ c.support.outline) (hspans : c.Spans tol p)
    (slack : ℝ) : ((Segment.curve c).box slack).Holds tol p := by
  cases c with
  | circle k => exact (Circle.holds_outline hc.support hp).mono htol
  | arc a =>
      obtain ⟨hplanar, hdist⟩ := hp
      obtain ⟨n, hlow, hhigh⟩ := hspans
      obtain ⟨hstart, hstop⟩ := dist_ends hc hlevel
      have hregular := hc.arc.regular hstart hstop
      have hradius := hregular.radius_pos
      -- a point a little beyond an end is near the end
      obtain ⟨θ, hθ, hθ', hclose⟩ := exists_mem_of_widened hregular.start_le_end
        (div_nonneg htol hradius.le) hlow hhigh
      have hpoint : p = a.center.around a.radius (p.angleXY a.center + n * (2 * pi)) := by
        rw [Point.around_add_turns]
        conv_lhs => rw [← Point.around_angleXY (hplanar.trans hc.support.planar.symm)]
        exact congrArg (fun r => a.center.around r _) hdist
      have hnear : p.dist (a.center.around a.radius θ) ≤ tol := by
        rw [hpoint]
        exact (Point.dist_around_le a.center hradius.le _ _).trans ((le_div_iff₀' hradius).mp hclose)
      have hholds := (hregular.drawn.holds_around hθ hθ').near hnear
      rwa [zero_add] at hholds

namespace Segment

/-- If two segments are curves, the kernel tells their circles apart. -/
def OnDistinctCircles : Segment ℝ → Segment ℝ → Prop
  | curve c, curve d => c.support.same d.support radiusTol = false
  | _, _ => True

/-- A point is contained in the boxes of two segments, by the default tolerances. -/
def Boxed (a b : Segment ℝ) (p : Point ℝ) : Prop :=
  (a.box coincidentTol).contains p coincidentTol = true ∧
    (b.box coincidentTol).contains p coincidentTol = true

lemma Boxed.symm {a b : Segment ℝ} {p : Point ℝ} (h : a.Boxed b p) : b.Boxed a p := And.symm h

/-- What is reported of a line and a curve is in both boxes. -/
lemma line_curve_boxed {l : Line ℝ} {c : Curve ℝ} (hl : Built (.line l)) (hc : Built (.curve c))
    (hlevel : c.EndsLevel) :
    ∃ r, l.intersectCurve c coincidentTol radiusTol = .ok r ∧
      ∀ p ∈ r.points, (line l).Boxed (curve c) p := by
  have htol : (0 : ℝ) ≤ coincidentTol := coincidentTol_pos.le
  obtain ⟨r, hr, -, hon⟩ := Line.intersectCurve_on hl.made hc.made coincidentTol radiusTol
  refine ⟨r, hr, fun p hp => ?_⟩
  obtain ⟨htrace, hout, hspans⟩ := hon p hp
  exact ⟨Box.contains_iff.mpr (Line.holds_trace htol htrace),
    Box.contains_iff.mpr (Curve.holds_of_spans hc hlevel htol hout hspans _)⟩

/-- What is reported of two curves on different circles is in both boxes. -/
lemma curve_curve_boxed {c d : Curve ℝ} (hc : Built (.curve c)) (hd : Built (.curve d))
    (hcLevel : c.EndsLevel) (hdLevel : d.EndsLevel)
    (hsame : c.support.same d.support radiusTol = false) :
    ∃ r, c.intersect d coincidentTol radiusTol = .ok r ∧
      ∀ p ∈ r.points, (curve c).Boxed (curve d) p := by
  have htol : (0 : ℝ) ≤ coincidentTol := coincidentTol_pos.le
  have harcs : ∃ r, c.intersectArcs d coincidentTol radiusTol = .ok r ∧
      ∀ p ∈ r.points, (curve c).Boxed (curve d) p := by
    obtain ⟨r, hr, -, hon⟩ := Curve.intersectArcs_on hc.made hd.made radiusTol_pos
      (Bool.eq_false_iff.mp hsame) coincidentTol
    refine ⟨r, hr, fun p hp => ?_⟩
    obtain ⟨⟨hout, hout'⟩, hspans, hspans'⟩ := hon p hp
    exact ⟨Box.contains_iff.mpr (Curve.holds_of_spans hc hcLevel htol hout hspans _),
      Box.contains_iff.mpr (Curve.holds_of_spans hd hdLevel htol hout' hspans' _)⟩
  cases c with
  | arc a => exact harcs
  | circle k =>
      cases d with
      | arc a => exact harcs
      | circle k' =>
          obtain ⟨r, hr, -, hon⟩ := Circle.intersect_on hc.support hd.support radiusTol_pos
          refine ⟨r, hr, fun p hp => ?_⟩
          obtain ⟨hout, hout'⟩ := hon p hp
          exact ⟨Box.contains_iff.mpr (Curve.holds_of_spans hc hcLevel htol hout trivial _),
            Box.contains_iff.mpr (Curve.holds_of_spans hd hdLevel htol hout' trivial _)⟩

/-- **Boxes lose no intersection.**  For every two segments of which one is a curve, on circles that
the kernel tells apart if both are, and with the ends of arcs at their radius, the intersection has a
result, and each of its points is contained in the boxes of both. -/
theorem intersect_boxed {a b : Segment ℝ} (ha : a.Built) (hb : b.Built) (haLevel : a.EndsLevel)
    (hbLevel : b.EndsLevel) (hcurve : ¬ (a.isLine = true ∧ b.isLine = true))
    (hcircles : a.OnDistinctCircles b) :
    ∃ r, a.intersect b coincidentTol radiusTol = .ok r ∧ ∀ p ∈ r.points,
      (a.box coincidentTol).contains p coincidentTol = true ∧
        (b.box coincidentTol).contains p coincidentTol = true := by
  cases a with
  | line l =>
      cases b with
      | line l' => exact absurd ⟨rfl, rfl⟩ hcurve
      | curve c => exact line_curve_boxed ha hb hbLevel
  | curve c =>
      cases b with
      | line l =>
          obtain ⟨r, hr, hboxed⟩ := line_curve_boxed hb ha haLevel
          exact ⟨r, hr, fun p hp => (hboxed p hp).symm⟩
      | curve d => exact curve_curve_boxed ha hb haLevel hbLevel hcircles

/-- An upright line through the top of the upper half of a circle, which is on no end of the half. -/
theorem intersect_boxed_at_top :
    Built (.line ⟨⟨0, 1, 0⟩, ⟨0, 10, 0⟩⟩) ∧ Built (.curve (.arc Line.upperHalf)) ∧
      EndsLevel (.curve (.arc Line.upperHalf)) ∧
      ∃ r, (line ⟨⟨0, 1, 0⟩, ⟨0, 10, 0⟩⟩).intersect (.curve (.arc Line.upperHalf))
          coincidentTol radiusTol = .ok r ∧
        (⟨0, 5, 0⟩ : Point ℝ) ∈ r.points ∧ ∀ p ∈ r.points,
          (box (.line ⟨⟨0, 1, 0⟩, ⟨0, 10, 0⟩⟩) coincidentTol).contains p coincidentTol = true ∧
            (box (.curve (.arc Line.upperHalf)) coincidentTol).contains p coincidentTol = true := by
  have hl : Built (.line ⟨⟨0, 1, 0⟩, ⟨0, 10, 0⟩⟩) := .ofLine (Line.ofEnds_of_lt rfl rfl (.inr (by
    rw [coincidentTol_eq]; norm_num [abs_of_nonpos])))
  have hradius : Line.upperHalf.radius = 5 := Point.dist_origin (by norm_num) (by norm_num)
  have hlevel : EndsLevel (.curve (.arc Line.upperHalf)) :=
    hradius.trans (Point.dist_origin (by norm_num) (by norm_num)).symm
  have hD : Line.discriminant ⟨⟨0, 1, 0⟩, ⟨0, 10, 0⟩⟩ (.arc Line.upperHalf) = 8100 := by
    rw [Line.discriminant_eq_chordMeasure hl.line, Line.chordMeasure, mul_pow,
      ← Line.lead_eq_dist_sq hl.line, show (Curve.arc Line.upperHalf).radius = 5 from hradius]
    norm_num [Curve.center, Line.lead, Line.upperHalf, Arc.aboutOrigin, Point.crossXY, Point.sub]
  have hband : radiusTol ≤ |Line.discriminant ⟨⟨0, 1, 0⟩, ⟨0, 10, 0⟩⟩ (.arc Line.upperHalf)| := by
    rw [hD, radiusTol_eq]
    norm_num [abs_of_nonneg]
  obtain ⟨r, hr, hboxed⟩ := intersect_boxed hl Line.built_upperHalf trivial hlevel
    (by simp [isLine]) trivial
  obtain ⟨points, hpoints, -, hmem⟩ := Line.intersectCurve_of_not_band hl.made Line.made_upperHalf
    coincidentTol radiusTol_pos hband
  cases hr.symm.trans hpoints
  refine ⟨hl, Line.built_upperHalf, hlevel, _, hr, (hmem _).mpr ⟨⟨5 / 9, ?_, ?_, ?_⟩, ⟨rfl, ?_⟩, ?_⟩,
    hboxed⟩
  · norm_num
  · norm_num
  · simp only [Point.lerp, Point.mk.injEq]
    norm_num
  · exact (Point.dist_origin (by norm_num) (by norm_num)).trans hradius.symm
  · exact Line.upperHalf_spans (by norm_num)

end Segment

end Contour
