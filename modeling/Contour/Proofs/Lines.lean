import Contour.Proofs.Construction

/-!
# Two lines in either order

The kernel calls two lines parallel if the sine of their angle is at most the tolerance, and then
measures how far the second line starts off the first.  Both orders give the same for lines that
cross and for lines that are exactly parallel.  In between they measure different things.

* `Line.Swappable` — the law: both orders give one flag and points that match.
* `Line.crossing_swap` — lines that are not parallel by the test obey it.
* `Line.shadow`, `Line.offset`, `Line.overlap` — what is measured of parallel lines.
* `Line.Concordant` — when lines that pass for parallel obey it; `Line.concordant_of_parallel` says
  that exactly parallel lines do.
* `Line.swappable_iff` — which lines obey the law, and `Line.nearly_parallel_not_swappable`, two
  that do not.
-/

namespace Contour

namespace Line

variable {a b l : Line ℝ} {tol : ℝ}

/-- **The law of operand order.**  Both orders report the same flag, as many points, and points that
match one to one within a millionth. -/
def Swappable (a b : Line ℝ) : Prop :=
  ∃ r s, (Segment.line a).intersect (.line b) coincidentTol radiusTol = .ok r ∧
    (Segment.line b).intersect (.line a) coincidentTol radiusTol = .ok s ∧ r.Matches 1e-6 s

/-- The point of the straight line through a line at a parameter. -/
noncomputable def point (l : Line ℝ) (t : ℝ) : Point ℝ := l.start.lerp l.stop t

/-- The vector product of two directions: the lengths times the sine of the angle. -/
noncomputable def skew (a b : Line ℝ) : ℝ := a.along.crossXY b.along

lemma skew_swap (a b : Line ℝ) : b.skew a = -a.skew b := by
  simp only [skew, Point.crossXY]
  ring

lemma mag_along (l : Line ℝ) : l.along.mag = l.start.dist l.stop := Point.dist_comm _ _

lemma Proper.mag_pos (h : l.Proper tol) (htol : 0 ≤ tol) : 0 < l.along.mag := by
  rw [mag_along]
  exact htol.trans_lt h.lt_length

lemma Proper.mag_sq (h : l.Proper tol) : l.along.mag ^ 2 = l.along.x ^ 2 + l.along.y ^ 2 := by
  rw [mag_along, Point.dist_comm, Point.dist_sq, h.start_planar, h.stop_planar]
  simp [along, Point.sub]

lemma dist_point (l : Line ℝ) (s t : ℝ) : (l.point s).dist (l.point t) = |s - t| * l.along.mag := by
  rw [mag_along, Point.dist_comm l.start, Point.dist_eq_iff
    (mul_nonneg (abs_nonneg _) (Point.dist_nonneg _ _)), mul_pow, sq_abs, Point.dist_sq]
  simp only [point, Point.lerp]
  ring

/-! ## Lines that cross -/

/-- The parameter of the first line at which the straight lines cross. -/
noncomputable def crossParam (a b : Line ℝ) : ℝ := (b.start.sub a.start).crossXY b.along / a.skew b

/-- A parameter lies on a line up to a distance. -/
def Reaches (l : Line ℝ) (t tol : ℝ) : Prop := -(tol / l.along.mag) ≤ t ∧ t ≤ 1 + tol / l.along.mag

/-- The straight lines cross in one point, whichever line it is taken on. -/
lemma point_crossParam (ha : a.Proper tol) (hb : b.Proper tol) (hskew : a.skew b ≠ 0) :
    a.point (a.crossParam b) = b.point (b.crossParam a) := by
  have hx : (a.skew b) * (a.crossParam b) = (b.start.sub a.start).crossXY b.along :=
    mul_div_cancel₀ _ hskew
  have hy : (a.skew b) * (b.crossParam a) = -(a.start.sub b.start).crossXY a.along := by
    rw [crossParam, skew_swap a b, div_neg, mul_neg, mul_div_cancel₀ _ hskew]
  have hplane : a.start.z + a.crossParam b * (a.stop.z - a.start.z)
      = b.start.z + b.crossParam a * (b.stop.z - b.start.z) := by
    simp [ha.start_planar, ha.stop_planar, hb.start_planar, hb.stop_planar]
  simp only [point, Point.lerp, Point.mk.injEq]
  refine ⟨?_, ?_, hplane⟩
  · refine mul_left_cancel₀ hskew ?_
    simp only [skew, along, Point.crossXY, Point.sub] at hx hy ⊢
    linear_combination (a.stop.x - a.start.x) * hx - (b.stop.x - b.start.x) * hy
  · refine mul_left_cancel₀ hskew ?_
    simp only [skew, along, Point.crossXY, Point.sub] at hx hy ⊢
    linear_combination (a.stop.y - a.start.y) * hx - (b.stop.y - b.start.y) * hy

/-- Moving a parameter onto the line moves its point by the tolerance at most. -/
lemma dist_point_clamp {t : ℝ} (hmag : 0 < l.along.mag) (htol : 0 ≤ tol) (h : l.Reaches t tol) :
    (l.point (min (max t 0) 1)).dist (l.point t) ≤ tol := by
  obtain ⟨hlow, hhigh⟩ := h
  have hslack : 0 ≤ tol / l.along.mag := div_nonneg htol hmag.le
  have hclamp : |min (max t 0) 1 - t| ≤ tol / l.along.mag := by
    rw [abs_le]
    rcases le_total t 0 with h0 | h0
    · rw [max_eq_right h0, min_eq_left zero_le_one]
      constructor <;> linarith
    · rw [max_eq_left h0]
      rcases le_total t 1 with h1 | h1
      · rw [min_eq_left h1]
        constructor <;> linarith
      · rw [min_eq_right h1]
        constructor <;> linarith
  calc (l.point (min (max t 0) 1)).dist (l.point t)
      = |min (max t 0) 1 - t| * l.along.mag := dist_point l _ _
    _ ≤ tol / l.along.mag * l.along.mag := mul_le_mul_of_nonneg_right hclamp hmag.le
    _ = tol := div_mul_cancel₀ _ hmag.ne'

/-- **The intersection of lines that cross.** -/
lemma intersectCrossing_cases (ha : a.along.mag ≠ 0) (hb : b.along.mag ≠ 0)
    (hskew : a.skew b ≠ 0) (tol : ℝ) :
    (a.Reaches (a.crossParam b) tol ∧ b.Reaches (b.crossParam a) tol ∧
      a.intersectCrossing b tol
        = .ok (.crossing [a.point (min (max (a.crossParam b) 0) 1)])) ∨
    (¬ (a.Reaches (a.crossParam b) tol ∧ b.Reaches (b.crossParam a) tol) ∧
      a.intersectCrossing b tol = .ok .miss) := by
  have hfirst : (quotient ((b.start.sub a.start).crossXY b.along) (a.along.crossXY b.along) :
      Except (Fault ℝ) ℝ) = .ok (a.crossParam b) := quotient_of_ne _ hskew
  -- the second parameter is formed with the divisor of the first
  have hsecond : (quotient ((b.start.sub a.start).crossXY a.along) (a.along.crossXY b.along) :
      Except (Fault ℝ) ℝ) = .ok (b.crossParam a) := by
    refine (quotient_of_ne _ hskew).trans ?_
    rw [crossParam, skew_swap a b, div_neg, ← neg_div]
    show Except.ok (_ / a.skew b) = _
    congr 2
    simp only [Point.crossXY, Point.sub]
    ring
  simp only [intersectCrossing, hfirst, hsecond, quotient_of_ne _ ha, quotient_of_ne _ hb, bind,
    Except.bind, pure, Except.pure, Bool.or_eq_true, decide_eq_true_eq, larger_eq_max,
    smaller_eq_min]
  split_ifs with hmissA hmissB
  · refine .inr ⟨fun h => ?_, rfl⟩
    rcases hmissA with hlow | hhigh
    · exact absurd h.1.1 (not_le.mpr hlow)
    · exact absurd h.1.2 (not_le.mpr hhigh)
  · refine .inr ⟨fun h => ?_, rfl⟩
    rcases hmissB with hlow | hhigh
    · exact absurd h.2.1 (not_le.mpr hlow)
    · exact absurd h.2.2 (not_le.mpr hhigh)
  · rw [not_or, not_lt, not_lt] at hmissA hmissB
    exact .inl ⟨hmissA, hmissB, rfl⟩

/-- Lines that cross give the same in both orders, up to the two ways of moving the crossing point
onto a line. -/
lemma crossing_swap (ha : a.Proper tol) (hb : b.Proper tol) (htol : 0 ≤ tol)
    (hskew : a.skew b ≠ 0) :
    ∃ r s, a.intersectCrossing b tol = .ok r ∧ b.intersectCrossing a tol = .ok s ∧
      r.Matches (2 * tol) s := by
  have hmagA := ha.mag_pos htol
  have hmagB := hb.mag_pos htol
  have hskew' : b.skew a ≠ 0 := by rw [skew_swap a b]; exact neg_ne_zero.mpr hskew
  rcases intersectCrossing_cases hmagA.ne' hmagB.ne' hskew tol with
    ⟨hreachA, hreachB, hab⟩ | ⟨hmiss, hab⟩ <;>
  rcases intersectCrossing_cases hmagB.ne' hmagA.ne' hskew' tol with
    ⟨hreachB', hreachA', hba⟩ | ⟨hmiss', hba⟩
  · refine ⟨_, _, hab, hba, .of_matched rfl (Matched.singleton_iff.mpr ?_)⟩
    have hnearA := dist_point_clamp hmagA htol hreachA
    have hnearB := dist_point_clamp hmagB htol hreachB
    rw [← point_crossParam ha hb hskew] at hnearB
    exact (Point.dist_le_of_near hnearA hnearB).trans_eq (two_mul tol).symm
  · exact absurd ⟨hreachB, hreachA⟩ hmiss'
  · exact absurd ⟨hreachA', hreachB'⟩ hmiss
  · exact ⟨_, _, hab, hba, .refl (by linarith) _⟩

/-! ## Parallel lines -/

/-- The parameter of a line at the foot of a point. -/
noncomputable def shadow (l : Line ℝ) (p : Point ℝ) : ℝ :=
  (p.sub l.start).dot l.along / (l.along.mag * l.along.mag)

/-- How far a second line starts off the straight line through the first. -/
noncomputable def offset (a b : Line ℝ) : ℝ :=
  |a.along.crossXY (b.start.sub a.start)| / a.along.mag

/-- The first parameter of a line in the shadow of another. -/
noncomputable def low (a b : Line ℝ) : ℝ := max 0 (min (a.shadow b.start) (a.shadow b.stop))

noncomputable def high (a b : Line ℝ) : ℝ := min 1 (max (a.shadow b.start) (a.shadow b.stop))

/-- The length of the shadow of another line on a line, negative if it falls beside the line. -/
noncomputable def overlap (a b : Line ℝ) : ℝ := (a.high b - a.low b) * a.along.mag

/-- What a line shares with a parallel one: nothing, the middle of a short run, or a run. -/
inductive Shares (a b : Line ℝ) (tol : ℝ) : Intersection ℝ → Prop
  | miss (h : tol < a.offset b ∨ a.overlap b < -tol) : Shares a b tol .miss
  | touch (hoffset : a.offset b ≤ tol) (hlow : -tol ≤ a.overlap b) (hhigh : a.overlap b ≤ tol) :
      Shares a b tol (.crossing [a.point (0.5 * (a.low b + a.high b))])
  | run (hoffset : a.offset b ≤ tol) (hlow : tol < a.overlap b) :
      Shares a b tol (.run (a.point (a.low b)) (a.point (a.high b)))

lemma Shares.unique {r s : Intersection ℝ} (htol : 0 ≤ tol) (hr : a.Shares b tol r)
    (hs : a.Shares b tol s) : r = s := by
  cases hr with
  | miss h =>
      cases hs with
      | miss => rfl
      | touch => rcases h with h | h <;> linarith
      | run => rcases h with h | h <;> linarith
  | touch =>
      cases hs with
      | miss h => rcases h with h | h <;> linarith
      | touch => rfl
      | run => linarith
  | run =>
      cases hs with
      | miss h => rcases h with h | h <;> linarith
      | touch => linarith
      | run => rfl

/-- **The intersection of parallel lines.** -/
lemma intersectParallel_shares (ha : a.along.mag ≠ 0) (b : Line ℝ) (tol : ℝ) :
    ∃ r, a.intersectParallel b tol = .ok r ∧ a.Shares b tol r := by
  have hoffset : (quotient |a.along.crossXY (b.start.sub a.start)| a.along.mag :
      Except (Fault ℝ) ℝ) = .ok (a.offset b) := quotient_of_ne _ ha
  have hstart : (quotient ((b.start.sub a.start).dot a.along) (a.along.mag * a.along.mag) :
      Except (Fault ℝ) ℝ) = .ok (a.shadow b.start) := quotient_of_ne _ (mul_ne_zero ha ha)
  have hstop : (quotient ((b.stop.sub a.start).dot a.along) (a.along.mag * a.along.mag) :
      Except (Fault ℝ) ℝ) = .ok (a.shadow b.stop) := quotient_of_ne _ (mul_ne_zero ha ha)
  simp only [intersectParallel, elementary_abs, hoffset, hstart, hstop, bind, Except.bind, pure,
    Except.pure, larger_eq_max, smaller_eq_min]
  split_ifs with hoff hmiss htouch
  · exact ⟨_, rfl, .miss (.inl hoff)⟩
  · exact ⟨_, rfl, .miss (.inr hmiss)⟩
  · exact ⟨_, rfl, .touch (not_lt.mp hoff) (not_lt.mp hmiss) htouch⟩
  · exact ⟨_, rfl, .run (not_lt.mp hoff) (not_le.mp htouch)⟩

/-! ### What both orders measure -/

/-- **When parallel lines obey the law.**  What is measured of the second line on the first, and of
the first on the second, falls on one side of every bound, and what is shared then lies within `ε`
of each other. -/
inductive Concordant (a b : Line ℝ) (tol ε : ℝ) : Prop
  | apart (hab : tol < a.offset b ∨ a.overlap b < -tol)
      (hba : tol < b.offset a ∨ b.overlap a < -tol)
  | touching (hab : a.offset b ≤ tol) (habs : |a.overlap b| ≤ tol)
      (hba : b.offset a ≤ tol) (hbas : |b.overlap a| ≤ tol)
      (hmiddle : (a.point (0.5 * (a.low b + a.high b))).dist
        (b.point (0.5 * (b.low a + b.high a))) ≤ ε)
  | running (hab : a.offset b ≤ tol) (habs : tol < a.overlap b)
      (hba : b.offset a ≤ tol) (hbas : tol < b.overlap a)
      (hends : Matched ε [a.point (a.low b), a.point (a.high b)]
        [b.point (b.low a), b.point (b.high a)])

/-- What two lines share in both orders matches iff they are concordant. -/
lemma matches_iff_concordant {ε : ℝ} (htol : 0 ≤ tol) (hε : 0 ≤ ε) {r s : Intersection ℝ}
    (hab : a.Shares b tol r) (hba : b.Shares a tol s) : r.Matches ε s ↔ a.Concordant b tol ε := by
  constructor
  · intro h
    cases hab with
    | miss hab =>
        cases hba with
        | miss hba => exact .apart hab hba
        | touch => cases h.size_eq
        | run => cases h.flag_eq
    | touch hab hlow hhigh =>
        cases hba with
        | miss => cases h.size_eq
        | touch hba hlow' hhigh' =>
            exact .touching hab (abs_le.mpr ⟨hlow, hhigh⟩) hba (abs_le.mpr ⟨hlow', hhigh'⟩)
              (Matched.singleton_iff.mp h.points)
        | run => cases h.flag_eq
    | run hab hlow =>
        cases hba with
        | miss => cases h.flag_eq
        | touch => cases h.flag_eq
        | run hba hlow' => exact .running hab hlow hba hlow' h.points
  · intro h
    cases h with
    | apart hab' hba' =>
        rw [hab.unique htol (.miss hab'), hba.unique htol (.miss hba')]
        exact .refl hε _
    | touching hoff habs hoff' hbas hmiddle =>
        obtain ⟨hlow, hhigh⟩ := abs_le.mp habs
        obtain ⟨hlow', hhigh'⟩ := abs_le.mp hbas
        rw [hab.unique htol (.touch hoff hlow hhigh), hba.unique htol (.touch hoff' hlow' hhigh')]
        exact .of_matched rfl (Matched.singleton_iff.mpr hmiddle)
    | running hoff hlow hoff' hlow' hends =>
        rw [hab.unique htol (.run hoff hlow), hba.unique htol (.run hoff' hlow')]
        exact .of_matched rfl hends

/-! ### Exactly parallel lines -/

/-- The length of the shadow of a line, as a signed multiple of the line it falls on. -/
noncomputable def ratio (a b : Line ℝ) : ℝ := b.along.dot a.along / (a.along.mag * a.along.mag)

lemma shadow_point (a b : Line ℝ) (t : ℝ) :
    a.shadow (b.point t) = a.shadow b.start + a.ratio b * t := by
  simp only [shadow, ratio, point, along, Point.lerp, Point.dot, Point.sub]
  ring

lemma shadow_start (l : Line ℝ) : l.shadow l.start = 0 := by simp [shadow, Point.dot, Point.sub]

lemma shadow_stop (hmag : l.along.mag ≠ 0) : l.shadow l.stop = 1 := by
  show l.along.dot l.along / (l.along.mag * l.along.mag) = 1
  rw [← Point.mag_mul_self, div_self (mul_ne_zero hmag hmag)]

/-- The distance of a point from the foot of its shadow. -/
lemma dist_shadow (h : l.Proper tol) (htol : 0 ≤ tol) {p : Point ℝ} (hp : p.z = 0) :
    p.dist (l.point (l.shadow p)) = |l.along.crossXY (p.sub l.start)| / l.along.mag := by
  have hmag := (h.mag_pos htol).ne'
  have hsq := h.mag_sq
  have hparam : l.shadow p * l.along.mag ^ 2 = (p.sub l.start).dot l.along := by
    rw [shadow, sq, div_mul_cancel₀ _ (mul_ne_zero hmag hmag)]
  rw [Point.dist_eq_iff (div_nonneg (abs_nonneg _) (h.mag_pos htol).le), div_pow, sq_abs,
    eq_div_iff (pow_ne_zero 2 hmag), hsq]
  rw [hsq] at hparam
  simp only [point, along, Point.lerp, Point.crossXY, Point.dot, Point.sub, hp, h.start_planar,
    h.stop_planar] at hparam ⊢
  linear_combination
    (l.shadow p * ((l.stop.x - l.start.x) ^ 2 + (l.stop.y - l.start.y) ^ 2)
      - ((p.x - l.start.x) * (l.stop.x - l.start.x) + (p.y - l.start.y) * (l.stop.y - l.start.y)))
      * hparam

/-- Parallel lines have one direction, up to its length and sense. -/
lemma along_of_parallel (ha : a.Proper tol) (htol : 0 ≤ tol) (hskew : a.skew b = 0) :
    b.along.x = a.ratio b * a.along.x ∧ b.along.y = a.ratio b * a.along.y := by
  have hmag := (ha.mag_pos htol).ne'
  have hsq := ha.mag_sq
  have hz : a.along.z = 0 := by simp [along, Point.sub, ha.start_planar, ha.stop_planar]
  have hratio : a.ratio b * a.along.mag ^ 2 = b.along.dot a.along := by
    rw [ratio, sq, div_mul_cancel₀ _ (mul_ne_zero hmag hmag)]
  rw [hsq, Point.dot, hz] at hratio
  rw [skew, Point.crossXY] at hskew
  have hpos : a.along.x ^ 2 + a.along.y ^ 2 ≠ 0 := hsq ▸ pow_ne_zero 2 hmag
  constructor
  · refine mul_right_cancel₀ hpos ?_
    linear_combination -a.along.x * hratio - a.along.y * hskew
  · refine mul_right_cancel₀ hpos ?_
    linear_combination -a.along.y * hratio + a.along.x * hskew

lemma mag_of_parallel (ha : a.Proper tol) (hb : b.Proper tol) (htol : 0 ≤ tol)
    (hskew : a.skew b = 0) : b.along.mag = |a.ratio b| * a.along.mag := by
  obtain ⟨hx, hy⟩ := along_of_parallel ha htol hskew
  have hsq : b.along.mag ^ 2 = (|a.ratio b| * a.along.mag) ^ 2 := by
    rw [mul_pow, sq_abs, hb.mag_sq, ha.mag_sq, hx, hy]
    ring
  exact (pow_left_inj₀ (hb.mag_pos htol).le
    (mul_nonneg (abs_nonneg _) (ha.mag_pos htol).le) two_ne_zero).mp hsq

lemma ratio_ne_zero (ha : a.Proper tol) (hb : b.Proper tol) (htol : 0 ≤ tol)
    (hskew : a.skew b = 0) : a.ratio b ≠ 0 := by
  intro hzero
  have hmag := mag_of_parallel ha hb htol hskew
  rw [hzero, abs_zero, zero_mul] at hmag
  exact (hb.mag_pos htol).ne' hmag

/-- The foot of a point on one of two parallel lines gives its foot on the other. -/
lemma shadow_of_parallel (ha : a.Proper tol) (hb : b.Proper tol) (htol : 0 ≤ tol)
    (hskew : a.skew b = 0) {p : Point ℝ} (hp : p.z = 0) :
    a.ratio b * b.shadow p = a.shadow p - a.shadow b.start := by
  have hmag := (ha.mag_pos htol).ne'
  have hratio := ratio_ne_zero ha hb htol hskew
  obtain ⟨hx, hy⟩ := along_of_parallel ha htol hskew
  have hdot : (p.sub b.start).dot b.along = a.ratio b * (p.sub b.start).dot a.along := by
    simp only [Point.dot, Point.sub, hx, hy, hp, hb.start_planar]
    ring
  have hback : a.shadow p - a.shadow b.start
      = (p.sub b.start).dot a.along / (a.along.mag * a.along.mag) := by
    rw [shadow, shadow, ← sub_div]
    congr 1
    simp only [Point.dot, Point.sub]
    ring
  rw [hback, shadow, hdot, mag_of_parallel ha hb htol hskew, mul_mul_mul_comm, abs_mul_abs_self]
  field_simp

/-- Cutting a run down to a line, and cutting the line down to a run, leave the same. -/
lemma clamp_swap {f κ x y : ℝ} (hκ : 0 < κ) (hx : κ * x = -f) (hy : κ * y = 1 - f) :
    f + κ * max 0 (min x y) = max 0 (min f (f + κ)) ∧
      f + κ * min 1 (max x y) = min 1 (max f (f + κ)) := by
  have hle : x ≤ y := by nlinarith
  have hstep : f ≤ f + κ := by linarith
  rw [min_eq_left hle, max_eq_right hle, min_eq_left hstep, max_eq_right hstep,
    mul_max_of_nonneg _ _ hκ.le, mul_min_of_nonneg _ _ hκ.le,
    hx, hy, ← max_add_add_left, ← min_add_add_left, mul_zero, mul_one, add_zero, add_neg_cancel,
    add_sub_cancel, max_comm, min_comm]
  exact ⟨rfl, rfl⟩

lemma clamp_swap_neg {f κ x y : ℝ} (hκ : κ < 0) (hx : κ * x = -f) (hy : κ * y = 1 - f) :
    f + κ * max 0 (min x y) = min 1 (max f (f + κ)) ∧
      f + κ * min 1 (max x y) = max 0 (min f (f + κ)) := by
  -- turned round, the second line runs along the first
  obtain ⟨hlow, hhigh⟩ := clamp_swap (f := f + κ) (x := 1 - x) (y := 1 - y) (neg_pos.mpr hκ)
    (by linarith) (by linarith)
  have hmin : max 0 (min (1 - x) (1 - y)) = 1 - min 1 (max x y) := by
    rw [min_sub_sub_left, ← sub_self (1 : ℝ), max_sub_sub_left]
  have hmax : min 1 (max (1 - x) (1 - y)) = 1 - max 0 (min x y) := by
    rw [max_sub_sub_left]
    nth_rewrite 1 [← sub_zero (1 : ℝ)]
    rw [min_sub_sub_left]
  rw [hmin, add_neg_cancel_right, min_comm (f + κ)] at hlow
  rw [hmax, add_neg_cancel_right, max_comm (f + κ)] at hhigh
  exact ⟨by linarith, by linarith⟩

lemma offset_swap (ha : a.Proper tol) (hb : b.Proper tol) (htol : 0 ≤ tol)
    (hskew : a.skew b = 0) : b.offset a = a.offset b := by
  have hratio := ratio_ne_zero ha hb htol hskew
  obtain ⟨hx, hy⟩ := along_of_parallel ha htol hskew
  have hcross : b.along.crossXY (a.start.sub b.start)
      = -(a.ratio b * a.along.crossXY (b.start.sub a.start)) := by
    simp only [Point.crossXY, hx, hy, Point.sub]
    ring
  rw [offset, offset, hcross, abs_neg, abs_mul, mag_of_parallel ha hb htol hskew,
    mul_div_mul_left _ _ (abs_ne_zero.mpr hratio)]

/-- **Exactly parallel lines share as much seen from either**, and the ends of the shared run on one
fall on its ends on the other. -/
lemma overlap_swap (ha : a.Proper tol) (hb : b.Proper tol) (htol : 0 ≤ tol)
    (hskew : a.skew b = 0) :
    b.overlap a = a.overlap b ∧
      ((a.shadow (b.point (b.low a)) = a.low b ∧ a.shadow (b.point (b.high a)) = a.high b) ∨
        (a.shadow (b.point (b.low a)) = a.high b ∧ a.shadow (b.point (b.high a)) = a.low b)) := by
  have hmag := mag_of_parallel ha hb htol hskew
  have hstart : a.ratio b * b.shadow a.start = -a.shadow b.start := by
    rw [shadow_of_parallel ha hb htol hskew ha.start_planar, shadow_start, zero_sub]
  have hstop : a.ratio b * b.shadow a.stop = 1 - a.shadow b.start := by
    rw [shadow_of_parallel ha hb htol hskew ha.stop_planar, shadow_stop (ha.mag_pos htol).ne']
  have hend : a.shadow b.stop = a.shadow b.start + a.ratio b := by
    have hpoint : b.point 1 = b.stop := by simp [point, Point.lerp]
    rw [← hpoint, shadow_point, mul_one]
  simp only [shadow_point, overlap, low, high, hend, hmag]
  rcases (ratio_ne_zero ha hb htol hskew).lt_or_gt with hneg | hpos
  · obtain ⟨hlow, hhigh⟩ := clamp_swap_neg hneg hstart hstop
    refine ⟨?_, .inr ⟨hlow, hhigh⟩⟩
    rw [abs_of_neg hneg, ← hlow, ← hhigh]
    ring
  · obtain ⟨hlow, hhigh⟩ := clamp_swap hpos hstart hstop
    refine ⟨?_, .inl ⟨hlow, hhigh⟩⟩
    rw [abs_of_pos hpos, ← hlow, ← hhigh]
    ring

/-- Points of exactly parallel lines with one foot are as far apart as the lines. -/
lemma dist_point_of_parallel (ha : a.Proper tol) (hb : b.Proper tol) (htol : 0 ≤ tol)
    (hskew : a.skew b = 0) {s t : ℝ} (h : a.shadow (b.point t) = s) :
    (a.point s).dist (b.point t) = a.offset b := by
  have hplane : (b.point t).z = 0 := by simp [point, Point.lerp, hb.start_planar, hb.stop_planar]
  have hcross : a.along.crossXY ((b.point t).sub a.start)
      = a.along.crossXY (b.start.sub a.start) := by
    rw [skew] at hskew
    simp only [along, point, Point.crossXY, Point.lerp, Point.sub] at hskew ⊢
    linear_combination t * hskew
  rw [Point.dist_comm, ← h, dist_shadow ha htol hplane, hcross, offset]

/-- **Exactly parallel lines are concordant.**  Points that correspond are as far apart as the
lines, which is no more than the tolerance if anything is shared. -/
lemma concordant_of_parallel (ha : a.Proper tol) (hb : b.Proper tol) (htol : 0 ≤ tol)
    (hskew : a.skew b = 0) : a.Concordant b tol tol := by
  have hoffset := offset_swap ha hb htol hskew
  obtain ⟨hoverlap, hends⟩ := overlap_swap ha hb htol hskew
  by_cases hmiss : tol < a.offset b ∨ a.overlap b < -tol
  · exact .apart hmiss (by rwa [hoffset, hoverlap])
  · rw [not_or, not_lt, not_lt] at hmiss
    obtain ⟨hoff, hlow⟩ := hmiss
    have hoff' : b.offset a ≤ tol := hoffset.trans_le hoff
    have hdist : ∀ {s t : ℝ}, a.shadow (b.point t) = s → (a.point s).dist (b.point t) ≤ tol :=
      fun h => (dist_point_of_parallel ha hb htol hskew h).trans_le hoff
    by_cases hshort : a.overlap b ≤ tol
    · have hbounds : |a.overlap b| ≤ tol := abs_le.mpr ⟨hlow, hshort⟩
      refine .touching hoff hbounds hoff' (by rwa [hoverlap]) (hdist ?_)
      rcases hends with ⟨h1, h2⟩ | ⟨h1, h2⟩ <;>
      · rw [shadow_point] at h1 h2 ⊢
        linarith
    · rw [not_le] at hshort
      refine .running hoff hshort hoff' (by rwa [hoverlap]) (Matched.pair_iff.mpr ?_)
      rcases hends with ⟨h1, h2⟩ | ⟨h1, h2⟩
      · exact .inl ⟨hdist h1, hdist h2⟩
      · exact .inr ⟨hdist h2, hdist h1⟩

/-! ## The law -/

/-- Lines are parallel by the test if the sine of their angle is at most the tolerance. -/
def PassesForParallel (a b : Line ℝ) (tol : ℝ) : Prop :=
  |a.skew b| ≤ tol * a.along.mag * b.along.mag

lemma passesForParallel_comm (a b : Line ℝ) (tol : ℝ) :
    b.PassesForParallel a tol ↔ a.PassesForParallel b tol := by
  rw [PassesForParallel, PassesForParallel, skew_swap a b, abs_neg, mul_right_comm]

lemma intersect_of_parallel (h : a.PassesForParallel b tol) :
    a.intersect b tol = a.intersectParallel b tol := if_pos h

lemma intersect_of_not_parallel (h : ¬ a.PassesForParallel b tol) :
    a.intersect b tol = a.intersectCrossing b tol := if_neg h

lemma skew_ne_zero (htol : 0 ≤ tol) (h : ¬ a.PassesForParallel b tol) : a.skew b ≠ 0 := by
  intro hzero
  refine h ?_
  rw [PassesForParallel, hzero, abs_zero]
  exact mul_nonneg (mul_nonneg htol (Real.sqrt_nonneg _)) (Real.sqrt_nonneg _)

/-- Lines that fail the test cross, and obey the law. -/
lemma swappable_of_crossing (ha : a.Proper coincidentTol) (hb : b.Proper coincidentTol)
    (hpass : ¬ a.PassesForParallel b coincidentTol) : a.Swappable b := by
  have htol : (0 : ℝ) ≤ coincidentTol := coincidentTol_pos.le
  have hskew := skew_ne_zero htol hpass
  have hpass' : ¬ b.PassesForParallel a coincidentTol :=
    (passesForParallel_comm a b coincidentTol).not.mpr hpass
  obtain ⟨r, s, hr, hs, hmatch⟩ := crossing_swap ha hb htol hskew
  refine ⟨r, s, (intersect_of_not_parallel hpass).trans hr,
    (intersect_of_not_parallel hpass').trans hs, hmatch.mono ?_⟩
  rw [coincidentTol_eq]
  norm_num

/-- For lines that pass the test the law is about what they share. -/
lemma swappable_iff_matches (ha : a.Proper coincidentTol) (hb : b.Proper coincidentTol)
    (hpass : a.PassesForParallel b coincidentTol) :
    ∃ r s, a.Shares b coincidentTol r ∧ b.Shares a coincidentTol s ∧
      (a.Swappable b ↔ r.Matches 1e-6 s) := by
  have htol : (0 : ℝ) ≤ coincidentTol := coincidentTol_pos.le
  have hpass' := (passesForParallel_comm a b coincidentTol).mpr hpass
  obtain ⟨r, hr, hab⟩ := intersectParallel_shares (ha.mag_pos htol).ne' b coincidentTol
  obtain ⟨s, hs, hba⟩ := intersectParallel_shares (hb.mag_pos htol).ne' a coincidentTol
  have hr' : a.intersect b coincidentTol = .ok r := (intersect_of_parallel hpass).trans hr
  have hs' : b.intersect a coincidentTol = .ok s := (intersect_of_parallel hpass').trans hs
  exact ⟨r, s, hab, hba, by simp [Swappable, Segment.intersect, hr', hs']⟩

/-- **Which lines obey the law.**  Lines that cross and lines that are exactly parallel always do.
Lines that only pass for parallel do iff they are concordant: the start of each is measured against
the straight line through the other, and neither measure follows from the other. -/
theorem swappable_iff (ha : Segment.Built (.line a)) (hb : Segment.Built (.line b)) :
    a.Swappable b ↔
      (a.skew b ≠ 0 → a.PassesForParallel b coincidentTol → a.Concordant b coincidentTol 1e-6) := by
  have htol : (0 : ℝ) ≤ coincidentTol := coincidentTol_pos.le
  by_cases hpass : a.PassesForParallel b coincidentTol
  · obtain ⟨r, s, hab, hba, hlaw⟩ := swappable_iff_matches ha.line hb.line hpass
    rw [hlaw]
    constructor
    · exact fun h _ _ => (matches_iff_concordant htol (by norm_num) hab hba).mp h
    · intro h
      by_cases hskew : a.skew b = 0
      · have hconcordant := concordant_of_parallel ha.line hb.line htol hskew
        refine ((matches_iff_concordant htol htol hab hba).mpr hconcordant).mono ?_
        rw [coincidentTol_eq]
        norm_num
      · exact (matches_iff_concordant htol (by norm_num) hab hba).mpr (h hskew hpass)
  · exact iff_of_true (swappable_of_crossing ha.line hb.line hpass) fun _ h => absurd h hpass

/-! ## Two examples -/

def between (x y x' y' : ℝ) : Line ℝ := ⟨⟨x, y, 0⟩, ⟨x', y', 0⟩⟩

lemma built_between {x y x' y' : ℝ} (h : coincidentTol < |x - x'| ∨ coincidentTol < |y - y'|) :
    Segment.Built (.line (between x y x' y')) := .ofLine (Line.ofEnds_of_lt rfl rfl h)

lemma mag_between (x y x' y' : ℝ) :
    (between x y x' y').along.mag = √((x' - x) ^ 2 + (y' - y) ^ 2) := by
  rw [mag_along, Point.dist_comm, Point.dist_eq_sqrt]
  simp [between]

lemma skew_between (x y x' y' u v u' v' : ℝ) :
    (between x y x' y').skew (between u v u' v') = (x' - x) * (v' - v) - (y' - y) * (u' - u) := rfl

/-- Two lines that cross at a right angle obey the law. -/
theorem swappable_upright :
    Segment.Built (.line (between 0 0 10 0)) ∧ Segment.Built (.line (between 5 (-5) 5 5)) ∧
      (between 0 0 10 0).Swappable (between 5 (-5) 5 5) := by
  have ha : Segment.Built (.line (between 0 0 10 0)) :=
    built_between (.inl (by rw [coincidentTol_eq]; norm_num [abs_of_nonneg]))
  have hb : Segment.Built (.line (between 5 (-5) 5 5)) :=
    built_between (.inr (by rw [coincidentTol_eq]; norm_num [abs_of_nonneg]))
  refine ⟨ha, hb, (swappable_iff ha hb).mpr fun _ hpass => absurd hpass ?_⟩
  have hmagA : √((10 - 0 : ℝ) ^ 2 + (0 - 0) ^ 2) = 10 := by
    rw [Real.sqrt_eq_iff_mul_self_eq] <;> norm_num
  have hmagB : √((5 - 5 : ℝ) ^ 2 + (5 - -5) ^ 2) = 10 := by
    rw [Real.sqrt_eq_iff_mul_self_eq] <;> norm_num
  rw [PassesForParallel, skew_between, mag_between, mag_between, hmagA, hmagB, coincidentTol_eq]
  norm_num

noncomputable def shortLevel : Line ℝ := between 2 0 3 0

/-- A long line that leaves the first axis slowly. -/
noncomputable def longTilted : Line ℝ := between 0 0 4 3e-8

lemma mag_shortLevel : shortLevel.along.mag = 1 := by
  rw [shortLevel, mag_between]
  norm_num

lemma mag_longTilted : 4 ≤ longTilted.along.mag ∧ longTilted.along.mag ≤ 5 := by
  rw [longTilted, mag_between]
  constructor
  · exact Real.le_sqrt_of_sq_le (by norm_num)
  · exact Real.sqrt_le_iff.mpr (by norm_num)

lemma passesForParallel_tilted : shortLevel.PassesForParallel longTilted coincidentTol := by
  rw [PassesForParallel, mag_shortLevel, shortLevel, longTilted, skew_between, coincidentTol_eq,
    ← longTilted]
  norm_num [abs_of_nonneg]
  linarith [mag_longTilted.1]

/-- All of the short line lies in the shadow of the long one. -/
lemma shortLevel_shares :
    shortLevel.Shares longTilted coincidentTol (.run ⟨2, 0, 0⟩ ⟨3, 0, 0⟩) := by
  have hstart : shortLevel.shadow longTilted.start = -2 := by
    rw [shadow, mag_shortLevel]
    norm_num [shortLevel, longTilted, between, along, Point.dot, Point.sub]
  have hstop : shortLevel.shadow longTilted.stop = 2 := by
    rw [shadow, mag_shortLevel]
    norm_num [shortLevel, longTilted, between, along, Point.dot, Point.sub]
  have hlow : shortLevel.low longTilted = 0 := by
    rw [low, hstart, hstop]
    norm_num
  have hhigh : shortLevel.high longTilted = 1 := by
    rw [high, hstart, hstop]
    norm_num
  have hfirst : shortLevel.point (shortLevel.low longTilted) = ⟨2, 0, 0⟩ := by
    rw [hlow]
    norm_num [point, Point.lerp, shortLevel, between]
  have hlast : shortLevel.point (shortLevel.high longTilted) = ⟨3, 0, 0⟩ := by
    rw [hhigh]
    norm_num [point, Point.lerp, shortLevel, between]
  rw [← hfirst, ← hlast]
  refine .run ?_ ?_
  · rw [offset, mag_shortLevel, coincidentTol_eq]
    norm_num [shortLevel, longTilted, between, along, Point.crossXY, Point.sub]
  · rw [overlap, hlow, hhigh, mag_shortLevel, coincidentTol_eq]
    norm_num

lemma longTilted_shares : longTilted.Shares shortLevel coincidentTol .miss := by
  obtain ⟨hmag, hmag'⟩ := mag_longTilted
  refine .miss (.inl ?_)
  rw [offset, lt_div_iff₀ (by linarith), coincidentTol_eq]
  calc 1e-8 * longTilted.along.mag ≤ 1e-8 * 5 := mul_le_mul_of_nonneg_left hmag' (by norm_num)
    _ < |longTilted.along.crossXY (shortLevel.start.sub longTilted.start)| := by
      norm_num [shortLevel, longTilted, between, along, Point.crossXY, Point.sub, abs_of_nonneg]

/-- **Nearly parallel lines that break the law.**  The long line starts on the straight line through
the short one and leaves it slowly.  Measured from the short line it shares all of it; measured from
the long line, the short one starts too far off. -/
theorem nearly_parallel_not_swappable :
    Segment.Built (.line shortLevel) ∧ Segment.Built (.line longTilted) ∧
      (Segment.line shortLevel).intersect (.line longTilted) coincidentTol radiusTol
        = .ok (.run ⟨2, 0, 0⟩ ⟨3, 0, 0⟩) ∧
      (Segment.line longTilted).intersect (.line shortLevel) coincidentTol radiusTol = .ok .miss ∧
      ¬ shortLevel.Swappable longTilted := by
  have htol : (0 : ℝ) ≤ coincidentTol := coincidentTol_pos.le
  have hmag : shortLevel.along.mag ≠ 0 := by rw [mag_shortLevel]; exact one_ne_zero
  have hmag' : longTilted.along.mag ≠ 0 := (zero_lt_four.trans_le mag_longTilted.1).ne'
  obtain ⟨r, hr, hshares⟩ := intersectParallel_shares hmag longTilted coincidentTol
  obtain ⟨s, hs, hshares'⟩ := intersectParallel_shares hmag' shortLevel coincidentTol
  rw [hshares.unique htol shortLevel_shares] at hr
  rw [hshares'.unique htol longTilted_shares] at hs
  have hresult := (intersect_of_parallel passesForParallel_tilted).trans hr
  have hswapped := (intersect_of_parallel
    ((passesForParallel_comm _ _ _).mpr passesForParallel_tilted)).trans hs
  refine ⟨built_between (.inl ?_), built_between (.inl ?_), hresult, hswapped, ?_⟩
  · rw [coincidentTol_eq]; norm_num [abs_of_nonneg]
  · rw [coincidentTol_eq]; norm_num [abs_of_nonneg]
  · rintro ⟨r, s, hr, hs, hmatch⟩
    cases hr.symm.trans hresult
    cases hs.symm.trans hswapped
    cases hmatch.flag_eq

end Line

end Contour
