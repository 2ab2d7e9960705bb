import Contour.Proofs.CircleCuts
import Contour.Proofs.Coverage
import Contour.Proofs.SharedRuns

/-!
# Segments that can be reached

A segment that was built may be drawn the other way and split, its pieces may be split again, and so
on.  What holds of every segment that comes out of this is less than what holds of those that are
built: an arc is cut on its circle while its own ends stay where they are, its angles are moved by
whole turns, and halves of a circle are built anew.

* `Line.Sound`, `Arc.Sound`, `Segment.Sound` — the invariant.
* `Circle.Stands` — a point stands near a circle at an angle; an arc is sound if its ends do.
* `Segment.Built.sound`, `Segment.Sound.reverse`, `Segment.Sound.cut` — what is built is sound, and
  every step keeps it so.
* `Segment.Sound.split_ok_iff` — a sound segment is split at one or two points that it accepts, and
  at no other ones.
* `Segment.Reachable`, `Segment.reachable_sound` — every reachable segment is sound.
-/

namespace Contour

open Real (pi)

/-! ## The invariant -/

structure Line.Sound (l : Line ℝ) : Prop where
  start_planar : l.start.z = 0
  stop_planar : l.stop.z = 0
  ne : l.start ≠ l.stop

/-- An arc of at most a turn that starts within half a turn of angle zero.  Its ends are near its
circle, in the directions of its angles. -/
structure Arc.Sound (a : Arc ℝ) : Prop where
  center_planar : a.center.z = 0
  traceStart_planar : a.traceStart.z = 0
  traceStop_planar : a.traceStop.z = 0
  radius_pos : 0 < a.radius
  neg_pi_le : -pi ≤ a.startAngle
  le_pi : a.startAngle ≤ pi
  sweep_nonneg : 0 ≤ a.sweep
  sweep_le : a.sweep ≤ 2 * pi
  traceStart_near : |a.traceStart.dist a.center - a.radius| ≤ radiusTol
  traceStop_near : |a.traceStop.dist a.center - a.radius| ≤ radiusTol
  startAngle_eq : ∃ n : ℤ, a.startAngle = a.start.angleXY a.center + n * (2 * pi)
  endAngle_eq : ∃ n : ℤ, a.endAngle = a.stop.angleXY a.center + n * (2 * pi)

/-- **What holds of every reachable segment.** -/
def Segment.Sound : Segment ℝ → Prop
  | line l => l.Sound
  | curve (.arc a) => a.Sound
  | curve (.circle c) => c.Proper

/-! ## Ends of arcs -/

/-- A point within `ε` of a circle, in the direction of an angle. -/
structure Circle.Stands (c : Circle ℝ) (ε θ : ℝ) (p : Point ℝ) : Prop where
  planar : p.z = 0
  near : |p.dist c.center - c.radius| ≤ ε
  direction : ∃ n : ℤ, θ = p.angleXY c.center + n * (2 * pi)

namespace Circle

variable {c : Circle ℝ} {ε : ℝ}

lemma around_mem_outline (hc : c.Proper) (θ : ℝ) : c.center.around c.radius θ ∈ c.outline := by
  refine ⟨hc.planar, (Point.dist_eq_iff hc.radius_pos.le).mpr ?_⟩
  simp only [Point.around]
  linear_combination c.radius ^ 2 * Real.sin_sq_add_cos_sq θ

/-- The point of a circle at an angle stands there. -/
lemma stands_around (hc : c.Proper) (hε : 0 ≤ ε) (θ : ℝ) :
    c.Stands ε θ (c.center.around c.radius θ) := by
  have hdist := (around_mem_outline hc θ).2
  have hpoint : c.center.around ((c.center.around c.radius θ).dist c.center)
      ((c.center.around c.radius θ).angleXY c.center) = c.center.around c.radius θ :=
    Point.around_angleXY rfl
  rw [hdist] at hpoint
  refine ⟨hc.planar, ?_, (Point.around_eq_iff c.center hc.radius_pos.ne' _ _).mp hpoint.symm⟩
  rwa [hdist, sub_self, abs_zero]

lemma Stands.add_turns {θ : ℝ} {p : Point ℝ} (h : c.Stands ε θ p) (k : ℤ) :
    c.Stands ε (θ + k * (2 * pi)) p := by
  obtain ⟨n, hn⟩ := h.direction
  refine ⟨h.planar, h.near, n + k, ?_⟩
  rw [hn]
  push_cast
  ring

lemma Stands.sub_turns {θ : ℝ} {p : Point ℝ} (h : c.Stands ε θ p) (k : ℤ) :
    c.Stands ε (θ - k * (2 * pi)) p := by
  have hback := h.add_turns (-k)
  rwa [Int.cast_neg, neg_mul, ← sub_eq_add_neg] at hback

end Circle

namespace Arc

variable {a : Arc ℝ}

namespace Sound

lemma proper (h : a.Sound) : (Curve.arc a).support.Proper := ⟨h.center_planar, h.radius_pos⟩

lemma start_stands (h : a.Sound) :
    (Curve.arc a).support.Stands radiusTol a.startAngle a.start := by
  have hangle := h.startAngle_eq
  rcases a.ends_cases with ⟨hstart, -⟩ | ⟨hstart, -⟩ <;> rw [hstart] at hangle ⊢
  · exact ⟨h.traceStart_planar, h.traceStart_near, hangle⟩
  · exact ⟨h.traceStop_planar, h.traceStop_near, hangle⟩

lemma stop_stands (h : a.Sound) :
    (Curve.arc a).support.Stands radiusTol a.endAngle a.stop := by
  have hangle := h.endAngle_eq
  rcases a.ends_cases with ⟨-, hstop⟩ | ⟨-, hstop⟩ <;> rw [hstop] at hangle ⊢
  · exact ⟨h.traceStop_planar, h.traceStop_near, hangle⟩
  · exact ⟨h.traceStart_planar, h.traceStart_near, hangle⟩

/-- An arc of the right extent whose ends stand at its angles is sound. -/
lemma of_stands (hc : (Curve.arc a).support.Proper) (hlow : -pi ≤ a.startAngle)
    (hhigh : a.startAngle ≤ pi) (hsweep : 0 ≤ a.sweep) (hturn : a.sweep ≤ 2 * pi)
    (hstart : (Curve.arc a).support.Stands radiusTol a.startAngle a.start)
    (hstop : (Curve.arc a).support.Stands radiusTol a.endAngle a.stop) : a.Sound := by
  rcases a.ends_cases with ⟨hs, he⟩ | ⟨hs, he⟩
  · exact ⟨hc.planar, hs ▸ hstart.planar, he ▸ hstop.planar, hc.radius_pos, hlow, hhigh, hsweep, hturn,
      hs ▸ hstart.near, he ▸ hstop.near, hstart.direction, hstop.direction⟩
  · exact ⟨hc.planar, he ▸ hstop.planar, hs ▸ hstart.planar, hc.radius_pos, hlow, hhigh, hsweep, hturn,
      he ▸ hstop.near, hs ▸ hstart.near, hstart.direction, hstop.direction⟩

protected lemma reverse (h : a.Sound) : a.reverse.Sound := by
  refine of_stands h.proper h.neg_pi_le h.le_pi h.sweep_nonneg h.sweep_le ?_ ?_
  · rw [start_reverse]
    exact h.start_stands
  · rw [stop_reverse]
    exact h.stop_stands

/-- The part of a circle between two angles at which points stand is sound, however many turns the
angles are from zero. -/
lemma piece {c : Circle ℝ} (hc : c.Proper) {θ φ : ℝ} {p q : Point ℝ} (hlow : -pi ≤ θ) (hle : θ ≤ φ)
    (hturn : φ ≤ θ + 2 * pi) (hp : c.Stands radiusTol θ p) (hq : c.Stands radiusTol φ q) :
    (Arc.piece c.center c.radius (θ, φ) (p, q)).Sound := by
  obtain ⟨k, hrewind, hlow', hhigh'⟩ := Angle.rewind_spec φ hlow
  have hpiece : Arc.piece c.center c.radius (θ, φ) (p, q)
      = ⟨c.center, c.radius, p, q, θ - k * (2 * pi), φ - k * (2 * pi), false⟩ := by
    simp only [Arc.piece, hrewind]
  rw [hpiece]
  refine of_stands hc hlow' hhigh' ?_ ?_ (by exact_mod_cast hp.sub_turns k)
    (by exact_mod_cast hq.sub_turns k)
  · show 0 ≤ φ - k * (2 * pi) - (θ - k * (2 * pi))
    linarith
  · show φ - k * (2 * pi) - (θ - k * (2 * pi)) ≤ 2 * pi
    linarith

/-- The parts of a sound arc between angles in order are sound. -/
lemma parts (h : a.Sound) {inner : List ℝ}
    (hchain : (a.startAngle :: inner ++ [a.endAngle]).IsChain (· ≤ ·)) :
    ∀ b ∈ a.parts inner, b.Sound := by
  intro b hb
  -- every place of the row of angles has its point in the row of points
  have hrow : List.Forall₂ ((Curve.arc a).support.Stands radiusTol)
      (a.startAngle :: inner ++ [a.endAngle])
      (a.start :: inner.map (a.center.around a.radius) ++ [a.stop]) := by
    refine .cons h.start_stands (List.rel_append ?_ (.cons h.stop_stands .nil))
    exact List.forall₂_map_right_iff.mpr
      (List.forall₂_same.mpr fun θ _ => Circle.stands_around h.proper radiusTol_pos.le θ)
  obtain ⟨angles, hangles, ends, ⟨hstart, hstop⟩, rfl⟩ :=
    exists_of_mem_zipWith (forall₂_consecutive hrow) hb
  obtain ⟨hfirst, hsecond⟩ := mem_of_mem_consecutive hangles
  have hlow := mem_row_of_isChain hchain hfirst
  have hhigh := mem_row_of_isChain hchain hsecond
  have hsweep := h.sweep_le
  rw [sweep] at hsweep
  exact piece h.proper (h.neg_pi_le.trans hlow.1) (rel_of_mem_consecutive hchain hangles)
    (by linarith [hlow.1, hhigh.2]) hstart hstop

/-- **Every piece of a sound arc is sound**, whichever points it is cut at. -/
lemma cut (h : a.Sound) (points : List (Point ℝ)) {tol : ℝ} (htol : 0 ≤ tol) :
    ∃ pieces, a.cut points tol = .ok pieces ∧ ∀ b ∈ pieces, b.Sound := by
  have hforward : ∀ {b : Arc ℝ}, b.Sound → b.clockwise = false →
      ∃ pieces, b.cut points tol = .ok pieces ∧ ∀ d ∈ pieces, d.Sound := by
    intro b hb hclockwise
    refine ⟨_, cut_eq hclockwise points tol, ?_⟩
    split
    · intro d hd
      rwa [List.mem_singleton.mp hd]
    · next hkept =>
        have hne : b.cutAngles points tol ≠ [] := by simpa using hkept
        exact hb.parts (isChain_cutAngles hb.radius_pos htol hne)
  cases hclockwise : a.clockwise with
  | false => exact hforward h hclockwise
  | true =>
      obtain ⟨pieces, hcut, hsound⟩ := hforward h.reverse (by rw [Arc.reverse, hclockwise]; rfl)
      refine ⟨pieces.reverse.map Arc.reverse, ?_, ?_⟩
      · rw [← reverse_reverse a, cut_reverse, hcut]
        rfl
      · intro b hb
        obtain ⟨d, hd, rfl⟩ := List.mem_map.mp hb
        exact (hsound d (List.mem_reverse.mp hd)).reverse

end Sound

end Arc

/-! ## Lines -/

namespace Line

variable {l : Line ℝ}

lemma Sound.mag_pos (h : l.Sound) : 0 < l.along.mag := by
  rw [mag_along]
  exact Point.dist_pos_iff.mpr h.ne

/-- **Every piece of a sound line is sound**, whichever points it is cut at. -/
lemma Sound.cut (h : l.Sound) (points : List (Point ℝ)) {tol : ℝ} (htol : 0 ≤ tol) :
    ∃ pieces, l.cut points tol = .ok pieces ∧ ∀ m ∈ pieces, m.Sound := by
  have hmag := h.mag_pos
  refine ⟨_, cut_eq hmag.ne' points tol, ?_⟩
  intro m hm
  obtain ⟨params, hparams, rfl⟩ := List.mem_map.mp hm
  have hplanar : ∀ t, (l.point t).z = 0 := fun t => by
    simp [point, Point.lerp, h.start_planar, h.stop_planar]
  have hapart : 0 < |params.1 - params.2| := by
    rcases eq_or_ne (l.cutParams points tol) [] with hnone | hkept
    · rw [hnone] at hparams
      rw [List.mem_singleton.mp hparams]
      norm_num
    · have hgap := of_decide_eq_true (rel_of_mem_consecutive (isChain_keepApart hkept) hparams)
      exact pos_of_mul_pos_left (htol.trans_lt hgap) hmag.le
  refine ⟨hplanar _, hplanar _, Point.dist_pos_iff.mp ?_⟩
  show 0 < (l.point params.1).dist (l.point params.2)
  rw [dist_point]
  exact mul_pos hapart hmag

end Line

/-! ## Circles -/

namespace Circle

variable {c : Circle ℝ}

/-- The bearing of a point is that of the point of the circle in its direction. -/
lemma bearing_around_bearing (hc : c.Proper) (p : Point ℝ) :
    c.bearing (c.center.around c.radius (c.bearing p)) = c.bearing p := by
  have hangle : (c.center.around c.radius (p.angleXY c.center)).angleXY c.center
      = p.angleXY c.center := by
    have hrange : p.angleXY c.center ∈ Set.Ioc (-pi) pi :=
      ⟨Complex.neg_pi_lt_arg _, Complex.arg_le_pi _⟩
    refine Eq.trans (congrArg Complex.arg (Complex.ext ?_ ?_))
      (Complex.arg_mul_cos_add_sin_mul_I hc.radius_pos hrange)
    · show c.center.x + c.radius * Real.cos (p.angleXY c.center) - c.center.x = _
      simp [Complex.cos_ofReal_re]
    · show c.center.y + c.radius * Real.sin (p.angleXY c.center) - c.center.y = _
      simp [Complex.sin_ofReal_re]
  simp only [bearing]
  rw [Point.around_unwrapAfter, hangle]

/-- A cut looks at the bearings of its points only. -/
lemma cut_congr {p q p' q' : Point ℝ} (hp : c.bearing p' = c.bearing p)
    (hq : c.bearing q' = c.bearing q) (tol : ℝ) : c.cut [p', q'] tol = c.cut [p, q] tol := by
  simp only [bearing] at hp hq
  simp only [cut, List.map_cons, List.map_nil, hp, hq]

/-- The half of a circle between two of its points was built. -/
lemma built_arcBetween {p q : Point ℝ} (hc : c.Proper) (hp : p ∈ c.outline) (hq : q ∈ c.outline)
    (hradius : 2 * coincidentTol < c.radius) (hagrees : p.agrees q coincidentTol = false) :
    (Segment.curve (.arc (c.arcBetween p q))).Built :=
  .ofCurve (ofEnds_of_not_agrees hc hp hq hradius hagrees)

end Circle

namespace Segment

/-- **What is built is sound.** -/
lemma Built.sound {s : Segment ℝ} (h : s.Built) : s.Sound := by
  rcases s with l | a | c
  · exact ⟨h.line.start_planar, h.line.stop_planar,
      Point.dist_pos_iff.mp (coincidentTol_pos.trans h.line.lt_length)⟩
  · have ha := h.arc
    have hends := h.ends
    have htraces : a.traceStart.z = 0 ∧ a.traceStop.z = 0 := by
      rcases a.ends_cases with ⟨hs, he⟩ | ⟨hs, he⟩
      · exact ⟨hs ▸ ha.start_planar, he ▸ ha.stop_planar⟩
      · exact ⟨he ▸ ha.stop_planar, hs ▸ ha.start_planar⟩
    obtain ⟨k, -, hk⟩ := Angle.unwrapAfter_isLeast (a.stop.angleXY a.center) a.startAngle
    refine ⟨ha.planar, htraces.1, htraces.2, ha.radius_pos, ha.neg_pi_lt.le, ha.le_pi,
      sub_nonneg.mpr ha.start_le_end, ?_, ?_, hends.traceStop_near, ⟨0, ?_⟩, ⟨k, ?_⟩⟩
    · rw [Arc.sweep]
      linarith [ha.end_lt_turn]
    · rw [hends.traceStart_dist, sub_self, abs_zero]
      exact radiusTol_pos.le
    · rw [ha.startAngle_eq, Int.cast_zero, zero_mul, add_zero]
    · rw [ha.endAngle_eq, hk, Int.cast_natCast]
  · exact h.support

end Segment

namespace Circle

variable {c : Circle ℝ}

lemma cut_pair_sound {p q : Point ℝ} (hc : c.Proper) (hp : p ∈ c.outline) (hq : q ∈ c.outline)
    (hle : c.bearing p ≤ c.bearing q) :
    ∃ pieces, c.cut [p, q] radiusTol = .ok pieces ∧ ∀ d ∈ pieces, (Segment.curve d).Sound := by
  have hwhole : (Segment.curve (.circle c)).Sound := hc
  rcases cut_cases hc hp hq hle with ⟨-, hcut⟩ | ⟨-, -, hcut⟩ | ⟨hlong, hagrees, hcut⟩
  · refine ⟨_, hcut, fun d hd => ?_⟩
    rwa [List.mem_singleton.mp hd]
  · refine ⟨_, hcut, fun d hd => ?_⟩
    rcases List.mem_pair.mp hd with rfl | rfl <;> exact hwhole
  · have hradius := lt_radius_of_lt_measured hlong
    refine ⟨_, hcut, fun d hd => ?_⟩
    rcases List.mem_pair.mp hd with rfl | rfl
    · exact (built_arcBetween hc hp hq hradius hagrees).sound
    · exact (built_arcBetween hc hq hp hradius ((Point.agrees_comm q p _).trans hagrees)).sound

/-- **Every piece of a circle is sound**, whichever points it is cut at. -/
lemma Proper.cut (hc : c.Proper) {points : List (Point ℝ)}
    (hcount : points.length = 1 ∨ points.length = 2) :
    ∃ pieces, c.cut points radiusTol = .ok pieces ∧ ∀ d ∈ pieces, (Segment.curve d).Sound := by
  rcases hcount with hone | htwo
  · obtain ⟨p, rfl⟩ := List.length_eq_one_iff.mp hone
    refine ⟨[.circle c], rfl, fun d hd => ?_⟩
    rw [List.mem_singleton.mp hd]
    exact hc
  · obtain ⟨p, q, rfl⟩ := List.length_eq_two.mp htwo
    -- the cut is that at the points of the circle in the two directions
    rw [← cut_congr (bearing_around_bearing hc p) (bearing_around_bearing hc q)]
    have hp := around_mem_outline hc (c.bearing p)
    have hq := around_mem_outline hc (c.bearing q)
    rcases le_total (c.bearing p) (c.bearing q) with hle | hle
    · refine cut_pair_sound hc hp hq ?_
      rwa [bearing_around_bearing hc, bearing_around_bearing hc]
    · rw [cut_swap]
      refine cut_pair_sound hc hq hp ?_
      rwa [bearing_around_bearing hc, bearing_around_bearing hc]

end Circle

namespace Segment

variable {s : Segment ℝ} {points : List (Point ℝ)}

protected lemma Sound.reverse (h : s.Sound) : s.reverse.Sound := by
  rcases s with l | a | c
  · exact ⟨h.stop_planar, h.start_planar, h.ne.symm⟩
  · exact Arc.Sound.reverse h
  · exact h

/-- **A sound segment is cut into sound pieces**, whichever points it is cut at. -/
lemma Sound.cut (h : s.Sound) (hcount : points.length = 1 ∨ points.length = 2) :
    ∃ pieces, s.cut points radiusTol = .ok pieces ∧ ∀ p ∈ pieces, p.Sound := by
  rcases s with l | a | c
  · obtain ⟨pieces, hcut, hsound⟩ := Line.Sound.cut h points radiusTol_pos.le
    refine ⟨pieces.map line, ?_, List.forall_mem_map.mpr hsound⟩
    show (l.cut points radiusTol >>= fun pieces => pure (pieces.map line)) = _
    rw [hcut]
    rfl
  · obtain ⟨pieces, hcut, hsound⟩ := Arc.Sound.cut h points radiusTol_pos.le
    refine ⟨pieces.map (curve ∘ .arc), ?_, List.forall_mem_map.mpr hsound⟩
    show (a.cut points radiusTol >>= fun pieces => pure (pieces.map (curve ∘ .arc))) = _
    rw [hcut]
    rfl
  · obtain ⟨pieces, hcut, hsound⟩ := Circle.Proper.cut h hcount
    refine ⟨pieces.map curve, ?_, List.forall_mem_map.mpr hsound⟩
    show (c.cut points radiusTol >>= fun pieces => pure (pieces.map curve)) = _
    rw [hcut]
    rfl

/-- Exactly one or two points on a segment pass the checks. -/
lemma checkCuts_ok_iff {tol : ℝ} : s.checkCuts points tol = .ok () ↔
    (points.length = 1 ∨ points.length = 2) ∧ ∀ p ∈ points, s.contains p tol = .ok true := by
  refine ⟨fun h => ?_, fun h => checkCuts_ok h.1 h.2⟩
  unfold checkCuts at h
  split_ifs at h with hcount
  · cases h
  · simp only [Bool.or_eq_true, decide_eq_true_eq, not_or] at hcount
    refine ⟨by omega, ?_⟩
    clear hcount
    induction points with
    | nil => exact fun p hp => absurd hp List.not_mem_nil
    | cons q rest ih =>
        rw [List.forM_eq_forM, List.forM_cons] at h
        cases hcontains : s.contains q tol with
        | error fault =>
            rw [hcontains] at h
            cases h
        | ok accepted =>
            rw [hcontains] at h
            cases accepted with
            | false => cases h
            | true => exact List.forall_mem_cons.mpr ⟨hcontains, ih h⟩

/-- **When a split succeeds.**  A sound segment is split at one or two points that it accepts, and at
no other ones. -/
lemma Sound.split_ok_iff (h : s.Sound) : (∃ pieces, s.split points radiusTol = .ok pieces) ↔
    (points.length = 1 ∨ points.length = 2) ∧ ∀ p ∈ points, s.contains p radiusTol = .ok true := by
  rw [← checkCuts_ok_iff]
  constructor
  · rintro ⟨pieces, hsplit⟩
    exact (split_eq_ok_iff.mp hsplit).1
  · intro hchecked
    obtain ⟨pieces, hcut, -⟩ := h.cut (checkCuts_ok_iff.mp hchecked).1
    exact ⟨pieces, split_eq_ok_iff.mpr ⟨hchecked, hcut⟩⟩

/-! ## Reachable segments -/

/-- The segments that come from built ones by drawing them the other way and by splitting them, any
number of times. -/
inductive Reachable : Segment ℝ → Prop
  | built {s : Segment ℝ} (h : s.Built) : Reachable s
  | reverse {s : Segment ℝ} (h : Reachable s) : Reachable s.reverse
  | piece {s p : Segment ℝ} {points : List (Point ℝ)} {pieces : List (Segment ℝ)} (h : Reachable s)
      (hsplit : s.split points radiusTol = .ok pieces) (hp : p ∈ pieces) : Reachable p

/-- A piece of a sound segment is sound. -/
lemma Sound.piece (h : s.Sound) {pieces : List (Segment ℝ)} {p : Segment ℝ}
    (hsplit : s.split points radiusTol = .ok pieces) (hp : p ∈ pieces) : p.Sound := by
  obtain ⟨hchecked, hcut⟩ := split_eq_ok_iff.mp hsplit
  obtain ⟨pieces', hcut', hsound⟩ := h.cut (checkCuts_ok_iff.mp hchecked).1
  cases hcut'.symm.trans hcut
  exact hsound p hp

/-- What is built is sound, and every step keeps it so. -/
lemma Reachable.sound (h : s.Reachable) : s.Sound := by
  induction h with
  | built h => exact h.sound
  | reverse _ ih => exact ih.reverse
  | piece _ hsplit hp ih => exact ih.piece hsplit hp

/-- **Every reachable segment is sound**, and it is split at one or two points exactly when it accepts
them. -/
theorem reachable_sound (h : s.Reachable) :
    s.Sound ∧ ∀ points, (∃ pieces, s.split points radiusTol = .ok pieces) ↔
      (points.length = 1 ∨ points.length = 2) ∧
        ∀ p ∈ points, s.contains p radiusTol = .ok true :=
  ⟨h.sound, fun _ => h.sound.split_ok_iff⟩

/-! ## Half a circle, cut at its lowest point -/

/-- The lower half of the circle of radius four about the origin. -/
noncomputable def lowerHalf : Arc ℝ := .aboutOrigin ⟨-4, 0, 0⟩ ⟨4, 0, 0⟩

lemma lowerHalf_angles : lowerHalf.startAngle = pi ∧ lowerHalf.endAngle = 2 * pi := by
  have hstart : (⟨-4, 0, 0⟩ : Point ℝ).angleXY ⟨0, 0, 0⟩ = pi := Point.angleXY_left (by norm_num)
  have hstop : (⟨4, 0, 0⟩ : Point ℝ).angleXY ⟨0, 0, 0⟩ = 0 := Point.angleXY_right (by norm_num)
  refine ⟨hstart, ?_⟩
  show Angle.unwrapAfter ((⟨4, 0, 0⟩ : Point ℝ).angleXY ⟨0, 0, 0⟩) (Point.angleXY _ _) = _
  rw [hstart, hstop, Angle.unwrapAfter_of_lt Real.pi_pos (by linarith [Real.pi_pos]), zero_add]

lemma built_lowerHalf : Built (curve (.arc lowerHalf)) := by
  refine Arc.built_aboutOrigin 4 ?_ (by norm_num) (by norm_num) (.inl ?_)
  · rw [coincidentTol_eq]; norm_num
  · rw [coincidentTol_eq]; norm_num

/-- The lower half accepts its lowest point and is cut there. -/
lemma split_lowerHalf : split (curve (.arc lowerHalf)) [(⟨0, -4, 0⟩ : Point ℝ)] radiusTol
    = .ok ((lowerHalf.parts [3 * pi / 2]).map (curve ∘ .arc)) := by
  have hpi := Real.pi_gt_three
  have hradius : lowerHalf.radius = 4 := Point.dist_origin (by norm_num) (by norm_num)
  obtain ⟨hstart, hstop⟩ := lowerHalf_angles
  have hangle : (⟨0, -4, 0⟩ : Point ℝ).angleXY lowerHalf.center = -(pi / 2) := by
    refine Complex.arg_eq_neg_pi_div_two_iff.mpr ⟨?_, ?_⟩ <;> norm_num [lowerHalf, Arc.aboutOrigin]
  have hcut : Angle.unwrapAfter (-(pi / 2)) pi = 3 * pi / 2 := by
    rw [Angle.unwrapAfter_of_lt (by linarith) (by linarith)]
    ring
  have hcuts : lowerHalf.cutAngles [⟨0, -4, 0⟩] radiusTol = [3 * pi / 2] := by
    have hfirst : (1e-3 : ℝ) < 4 * (3 * pi / 2 - pi) := by linarith
    have hsecond : (1e-3 : ℝ) < 4 * (2 * pi - 3 * pi / 2) := by linarith
    simp [Arc.cutAngles, hangle, hstart, hstop, hcut, hradius, radiusTol_eq, Scalar.ordered,
      keepApart, hfirst, hsecond]
  have hon : ∀ p ∈ [(⟨0, -4, 0⟩ : Point ℝ)],
      contains (curve (.arc lowerHalf)) p radiusTol = .ok true := by
    intro p hp
    rw [List.mem_singleton.mp hp]
    refine Curve.contains_of_mem_outline built_lowerHalf.made ⟨rfl, ?_⟩ radiusTol_pos.le ⟨1, ?_, ?_⟩
    · exact (Point.dist_origin (by norm_num) (by norm_num)).trans hradius.symm
    · rw [hangle, hstart, hradius, radiusTol_eq]
      push_cast
      linarith
    · rw [hangle, hstop, hradius, radiusTol_eq]
      push_cast
      linarith
  have hparts : lowerHalf.cut [⟨0, -4, 0⟩] radiusTol = .ok (lowerHalf.parts [3 * pi / 2]) := by
    rw [Arc.cut_eq rfl, hcuts]
    rfl
  refine split_eq_ok_iff.mpr ⟨checkCuts_ok (.inl rfl) hon, ?_⟩
  show (lowerHalf.cut [⟨0, -4, 0⟩] radiusTol >>= fun parts => pure (parts.map (curve ∘ .arc))) = _
  rw [hparts]
  rfl

/-- The second piece starts beyond half a turn and is stored a turn earlier.  Drawn the other way it is
clockwise, and it is as sound as what was built. -/
theorem reachable_sound_clockwisePart :
    ∃ a : Arc ℝ, a.clockwise = true ∧ a.startAngle = -(pi / 2) ∧ a.endAngle = 0 ∧
      Reachable (curve (.arc a)) ∧ Sound (curve (.arc a)) ∧
      ∀ points, (∃ pieces, split (curve (.arc a)) points radiusTol = .ok pieces) ↔
        (points.length = 1 ∨ points.length = 2) ∧
          ∀ p ∈ points, contains (curve (.arc a)) p radiusTol = .ok true := by
  have hpi := Real.pi_gt_three
  obtain ⟨-, hstop⟩ := lowerHalf_angles
  have hrewind : Angle.rewind (3 * pi / 2) (2 * pi) = (-(pi / 2), (0 : ℝ)) := by
    have hfirst : -pi ≤ 3 * pi / 2 := by linarith
    obtain ⟨k, hk, hlow, hhigh⟩ := Angle.rewind_spec (2 * pi) hfirst
    obtain rfl : k = 1 := by
      have hlt : (k : ℝ) < 2 := by nlinarith
      have hpos : (0 : ℝ) < k := by nlinarith
      have hlt' : k < 2 := by exact_mod_cast hlt
      have hpos' : 0 < k := by exact_mod_cast hpos
      omega
    rw [hk, Nat.cast_one, Prod.mk.injEq]
    constructor <;> ring
  set piece : Arc ℝ := ⟨lowerHalf.center, lowerHalf.radius,
    lowerHalf.center.around lowerHalf.radius (3 * pi / 2), lowerHalf.stop, -(pi / 2), 0, false⟩
    with hpiece
  have hmem : piece ∈ lowerHalf.parts [3 * pi / 2] := by
    refine List.mem_cons_of_mem _ (List.mem_singleton.mpr ?_)
    show _ = Arc.piece lowerHalf.center lowerHalf.radius (3 * pi / 2, lowerHalf.endAngle)
      (lowerHalf.center.around lowerHalf.radius (3 * pi / 2), lowerHalf.stop)
    rw [Arc.piece, hstop, hrewind, hpiece]
  have hreachable : Reachable (curve (.arc piece.reverse)) :=
    .reverse (.piece (.built built_lowerHalf) split_lowerHalf (List.mem_map_of_mem hmem))
  exact ⟨piece.reverse, rfl, rfl, rfl, hreachable, reachable_sound hreachable⟩

end Segment

end Contour
