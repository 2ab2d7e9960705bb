import Contour.Proofs.Acceptance
import Contour.Proofs.Direction

/-!
# Pieces side by side

A split takes the pieces of a segment from a row of cuts, but it stores each piece on its own: a line
by its two ends, an arc by angles that are moved by whole turns.  This file says that an intersection
still sees them as what they are, parts that follow each other and share nothing but the cut between
them.

* `Segment.NoEdge`, `Segment.Touches` — what the intersection of two pieces may report.
* `Segment.SideBySide` — the property of a list of pieces; `SideBySide.of_row` reads it off a row,
  `SideBySide.reverse` carries it over to pieces that are drawn clockwise.
* `Line.noEdge_part`, `Line.touches_part` — parts of one line.
* `Arc.Beside` — two arcs on one circle that come close after one number of turns only, and touch
  there at most; `Arc.beside_part` says that parts of one arc are such.
* `Segment.split_sideBySide` — the pieces of every split are side by side.
-/

namespace Contour

open Real (pi)

/-! ## What is reported of two pieces -/

namespace Segment

/-- The intersection of two segments has a result, and it is not a run. -/
def NoEdge (s t : Segment ℝ) : Prop :=
  ∃ r, s.intersect t coincidentTol radiusTol = .ok r ∧ r.flag ≠ .edge

/-- The intersection of two segments is nothing special but has a point, and only points near the
one given. -/
def Touches (s t : Segment ℝ) (x : Point ℝ) : Prop :=
  ∃ points, s.intersect t coincidentTol radiusTol = .ok (.crossing points) ∧ points ≠ [] ∧
    ∀ p ∈ points, p.dist x ≤ coincidentTol

/-- **Pieces side by side.**  No two of them share a run, and each touches the next one where it
stops, whichever of the two comes first. -/
structure SideBySide (pieces : List (Segment ℝ)) : Prop where
  noEdge : pieces.Pairwise fun s t => s.NoEdge t ∧ t.NoEdge s
  touches : pieces.IsChain fun s t =>
    s.traceStop = t.traceStart ∧ s.Touches t s.traceStop ∧ t.Touches s s.traceStop

namespace SideBySide

lemma whole (s : Segment ℝ) : SideBySide [s] := ⟨List.pairwise_singleton _ _, .singleton _⟩

/-- Parts between the neighbours of a row are side by side if those in order share no run, and those
with a cut in common touch there. -/
lemma of_row {row : List ℝ} {part : ℝ × ℝ → Segment ℝ} (hrow : row.IsChain (· ≤ ·))
    (hnoEdge : ∀ u ∈ consecutive row, ∀ v ∈ consecutive row, u.2 ≤ v.1 →
      (part u).NoEdge (part v) ∧ (part v).NoEdge (part u))
    (htouches : ∀ u ∈ consecutive row, ∀ v ∈ consecutive row, u.2 = v.1 →
      (part u).traceStop = (part v).traceStart ∧
        (part u).Touches (part v) (part u).traceStop ∧
        (part v).Touches (part u) (part u).traceStop) :
    SideBySide ((consecutive row).map part) where
  noEdge := by
    rw [List.pairwise_map]
    exact (pairwise_consecutive hrow).imp_of_mem fun hu hv hle => hnoEdge _ hu _ hv hle
  touches := by
    rw [List.isChain_map]
    exact (isChain_consecutive row).imp_of_mem_imp fun u v hu hv heq => htouches u hu v hv heq

/-- The same pieces drawn the other way are side by side. -/
lemma reverse {arcs : List (Arc ℝ)} (h : SideBySide (arcs.map (curve ∘ .arc))) :
    SideBySide ((arcs.reverse.map Arc.reverse).map (curve ∘ .arc)) := by
  obtain ⟨hnoEdge, htouches⟩ := h
  rw [List.pairwise_map] at hnoEdge
  rw [List.isChain_map] at htouches
  constructor
  · rw [List.map_map, List.pairwise_map, List.pairwise_reverse]
    refine hnoEdge.imp fun {a b} hab => ?_
    simp only [NoEdge, Function.comp_apply, intersect_reverse, intersect_reverse_right] at hab ⊢
    exact hab.symm
  · rw [List.map_map, List.isChain_map, List.isChain_reverse]
    refine htouches.imp fun a b hab => ?_
    obtain ⟨hjoined, hfirst, hsecond⟩ := hab
    -- the cut is where the first piece stops and where, drawn the other way, the second one does
    have hcut : (curve (.arc b.reverse)).traceStop = (curve (.arc a)).traceStop := hjoined.symm
    simp only [Touches, Function.comp_apply, intersect_reverse, intersect_reverse_right, hcut]
    exact ⟨rfl, hsecond, hfirst⟩

end SideBySide

end Segment

/-! ## Parts of a line -/

namespace Line

variable {a b l : Line ℝ} {u v : ℝ × ℝ}

/-- Lines with one direction pass for parallel. -/
lemma intersect_shares (ha : a.along.mag ≠ 0) (hskew : a.skew b = 0) :
    ∃ r, (Segment.line a).intersect (.line b) coincidentTol radiusTol = .ok r ∧
      a.Shares b coincidentTol r := by
  have hpass : a.PassesForParallel b coincidentTol := by
    rw [PassesForParallel, hskew, abs_zero]
    exact mul_nonneg (mul_nonneg coincidentTol_pos.le (Real.sqrt_nonneg _)) (Real.sqrt_nonneg _)
  obtain ⟨r, hr, hshares⟩ := intersectParallel_shares ha b coincidentTol
  exact ⟨r, (intersect_of_parallel hpass).trans hr, hshares⟩

/-- Parallel lines that come after each other share no run. -/
lemma noEdge_of_high_le_low (ha : a.along.mag ≠ 0) (hskew : a.skew b = 0)
    (hle : a.high b ≤ a.low b) : (Segment.line a).NoEdge (.line b) := by
  obtain ⟨r, hr, hshares⟩ := intersect_shares ha hskew
  refine ⟨r, hr, ?_⟩
  cases hshares with
  | miss => exact nofun
  | touch => exact nofun
  | run _ hlow =>
      have hoverlap : a.overlap b ≤ 0 :=
        mul_nonpos_of_nonpos_of_nonneg (sub_nonpos.mpr hle) (Real.sqrt_nonneg _)
      exact absurd hlow (not_lt.mpr (hoverlap.trans coincidentTol_pos.le))

/-- Lines on one straight line whose shared run shrinks to a point touch there. -/
lemma touches_of_eq (ha : a.along.mag ≠ 0) (hskew : a.skew b = 0) (hoffset : a.offset b = 0) {t : ℝ}
    (hlow : a.low b = t) (hhigh : a.high b = t) :
    (Segment.line a).Touches (.line b) (a.point t) := by
  have htol : (0 : ℝ) ≤ coincidentTol := coincidentTol_pos.le
  have hoverlap : a.overlap b = 0 := by rw [overlap, hlow, hhigh, sub_self, zero_mul]
  have hmiddle : 0.5 * (a.low b + a.high b) = t := by
    rw [hlow, hhigh]
    ring
  obtain ⟨r, hr, hshares⟩ := intersect_shares ha hskew
  have htouch : a.Shares b coincidentTol (.crossing [a.point t]) := by
    rw [← hmiddle]
    exact .touch (hoffset.trans_le htol) (by rw [hoverlap]; linarith) (hoverlap.trans_le htol)
  refine ⟨[a.point t], ?_, List.cons_ne_nil _ _, fun p hp => ?_⟩
  · rw [hr, hshares.unique htol htouch]
  · rw [List.mem_singleton.mp hp, Point.dist_self]
    exact htol

lemma mag_part_ne_zero (hmag : l.along.mag ≠ 0) (hu : u.1 < u.2) : (l.part u).along.mag ≠ 0 := by
  have hdist : (l.part u).along.mag = |u.1 - u.2| * l.along.mag := by
    rw [mag_along]
    exact dist_point l u.1 u.2
  rw [hdist]
  exact mul_ne_zero (abs_ne_zero.mpr (sub_neg.mpr hu).ne) hmag

lemma skew_part (l : Line ℝ) (u v : ℝ × ℝ) : (l.part u).skew (l.part v) = 0 := by
  simp only [skew, along, part, point, Point.lerp, Point.crossXY, Point.sub]
  ring

lemma offset_part (l : Line ℝ) (u v : ℝ × ℝ) : (l.part u).offset (l.part v) = 0 := by
  have hcross : (l.part u).along.crossXY ((l.part v).start.sub (l.part u).start) = 0 := by
    simp only [along, part, point, Point.lerp, Point.crossXY, Point.sub]
    ring
  rw [offset, hcross, abs_zero, zero_div]

/-- On a part of a line a parameter of the line is counted from where the part starts. -/
lemma shadow_part (hmag : l.along.mag ≠ 0) (hu : u.1 < u.2) (t : ℝ) :
    (l.part u).shadow (l.point t) = (t - u.1) / (u.2 - u.1) := by
  have hlength : l.along.dot l.along ≠ 0 := by
    rw [← Point.mag_mul_self]
    exact mul_ne_zero hmag hmag
  have hpart := mag_part_ne_zero hmag hu
  rw [shadow, div_eq_div_iff (mul_ne_zero hpart hpart) (sub_pos.mpr hu).ne', Point.mag_mul_self]
  simp only [along, part, point, Point.lerp, Point.dot, Point.sub]
  ring

/-- What lies behind a part of a line is seen past its end. -/
lemma one_le_shadow_part (hmag : l.along.mag ≠ 0) (hu : u.1 < u.2) {t : ℝ} (ht : u.2 ≤ t) :
    1 ≤ (l.part u).shadow (l.point t) := by
  rw [shadow_part hmag hu, one_le_div (sub_pos.mpr hu)]
  linarith

lemma shadow_part_nonpos (hmag : l.along.mag ≠ 0) (hu : u.1 < u.2) {t : ℝ} (ht : t ≤ u.1) :
    (l.part u).shadow (l.point t) ≤ 0 := by
  rw [shadow_part hmag hu]
  exact div_nonpos_of_nonpos_of_nonneg (by linarith) (sub_pos.mpr hu).le

/-- **Parts of a line that follow each other share no run.** -/
lemma noEdge_part (hmag : l.along.mag ≠ 0) (hu : u.1 < u.2) (hv : v.1 < v.2) (hle : u.2 ≤ v.1) :
    (Segment.line (l.part u)).NoEdge (.line (l.part v)) ∧
      (Segment.line (l.part v)).NoEdge (.line (l.part u)) := by
  constructor
  · -- seen from the first part, the second lies past its end
    refine noEdge_of_high_le_low (mag_part_ne_zero hmag hu) (skew_part l u v) ?_
    refine (min_le_left 1 _).trans (le_trans (le_min ?_ ?_) (le_max_right 0 _))
    · exact one_le_shadow_part hmag hu hle
    · exact one_le_shadow_part hmag hu (hle.trans hv.le)
  · -- seen from the second part, the first lies before its start
    refine noEdge_of_high_le_low (mag_part_ne_zero hmag hv) (skew_part l v u) ?_
    refine le_trans ((min_le_right 1 _).trans (max_le ?_ ?_)) (le_max_left 0 _)
    · exact shadow_part_nonpos hmag hv (hu.le.trans hle)
    · exact shadow_part_nonpos hmag hv hle

/-- Parts of a line with a cut in common touch there. -/
lemma touches_part (hmag : l.along.mag ≠ 0) (hu : u.1 < u.2) (hv : v.1 < v.2) (heq : u.2 = v.1) :
    (Segment.line (l.part u)).Touches (.line (l.part v)) (l.part u).stop ∧
      (Segment.line (l.part v)).Touches (.line (l.part u)) (l.part u).stop := by
  have hmagU := mag_part_ne_zero hmag hu
  have hmagV := mag_part_ne_zero hmag hv
  have hcut : (l.part v).start = (l.part u).stop := congrArg l.point heq.symm
  constructor
  · have hstart : (l.part u).shadow (l.part v).start = 1 := by rw [hcut, shadow_stop hmagU]
    have hstop : 1 ≤ (l.part u).shadow (l.part v).stop :=
      one_le_shadow_part hmag hu (heq.trans_le hv.le)
    rw [← point_one (l.part u)]
    refine touches_of_eq hmagU (skew_part l u v) (offset_part l u v) ?_ ?_
    · rw [low, hstart, min_eq_left hstop, max_eq_right zero_le_one]
    · rw [high, hstart, max_eq_right hstop, min_eq_left hstop]
  · have hstart : (l.part v).shadow (l.part u).start ≤ 0 :=
      shadow_part_nonpos hmag hv (hu.le.trans_eq heq)
    have hstop : (l.part v).shadow (l.part u).stop = 0 := by rw [← hcut, shadow_start]
    rw [← hcut, ← point_zero (l.part v)]
    refine touches_of_eq hmagV (skew_part l v u) (offset_part l v u) ?_ ?_
    · rw [low, hstop, min_eq_left hstart, max_eq_left hstart]
    · rw [high, hstop, max_eq_right hstart, min_eq_right zero_le_one]

/-- **The pieces of a line are side by side.** -/
lemma sideBySide_cut (hmag : 0 < l.along.mag) {points : List (Point ℝ)} {tol : ℝ} (htol : 0 ≤ tol)
    (hcount : points.length ≤ 2) (hon : ∀ p ∈ points, l.contains p tol = .ok true) :
    ∃ pieces, l.cut points tol = .ok pieces ∧ Segment.SideBySide (pieces.map Segment.line) := by
  have hrow := isChain_cutParams hmag hcount hon
  have hlt : ∀ u ∈ consecutive (0 :: l.cutParams points tol ++ [1]), u.1 < u.2 := by
    intro u hu
    refine lt_of_le_of_ne (rel_of_mem_consecutive hrow hu) fun heq => ?_
    rcases eq_or_ne (l.cutParams points tol) [] with hnone | hkept
    · rw [hnone] at hu
      rw [List.mem_singleton.mp hu] at heq
      exact zero_ne_one heq
    · have hgap := of_decide_eq_true (rel_of_mem_consecutive (isChain_keepApart hkept) hu)
      rw [heq, sub_self, abs_zero, zero_mul] at hgap
      exact absurd htol (not_le.mpr hgap)
  refine ⟨_, cut_eq hmag.ne' points tol, ?_⟩
  rw [List.map_map]
  refine .of_row hrow (fun u hu v hv hle => ?_) fun u hu v hv heq => ?_
  · exact noEdge_part hmag.ne' (hlt u hu) (hlt v hv) hle
  · exact ⟨congrArg l.point heq, touches_part hmag.ne' (hlt u hu) (hlt v hv) heq⟩

end Line

/-! ## Parts of an arc -/

namespace Arc

variable {a b : Arc ℝ} {turns : ℤ} {tol : ℝ} {u v : ℝ × ℝ}

/-- **Two arcs side by side on one circle.**  They come close after one number of turns at most, and
even then share no more than a point. -/
structure Beside (a b : Arc ℝ) (turns : ℤ) (tol : ℝ) : Prop where
  coaxial : a.Coaxial b
  tol_nonneg : 0 ≤ tol
  turns_eq : ∀ m : ℤ, -tol ≤ (a.common b (m * (2 * pi))).size * a.radius → m = turns
  size_nonpos : (a.common b (turns * (2 * pi))).size ≤ 0

namespace Beside

lemma common_swap (a b : Arc ℝ) (m : ℤ) :
    b.common a ((-m : ℤ) * (2 * pi)) = (a.common b (m * (2 * pi))).mirror := by
  rw [← common_neg, Int.cast_neg, neg_mul]

protected lemma symm (h : a.Beside b turns tol) : b.Beside a (-turns) tol where
  coaxial := h.coaxial.symm
  tol_nonneg := h.tol_nonneg
  turns_eq m hkeeps := by
    have hcommon := common_swap a b (-m)
    rw [neg_neg] at hcommon
    rw [hcommon, Run.mirror_size, h.coaxial.radius_eq] at hkeeps
    rw [← h.turns_eq (-m) hkeeps, neg_neg]
  size_nonpos := by
    rw [common_swap, Run.mirror_size]
    exact h.size_nonpos

lemma eq_common (h : a.Beside b turns tol) {r : Run ℝ} (hr : r ∈ a.runs b tol) :
    r = a.common b (turns * (2 * pi)) := by
  obtain ⟨hcommon, ⟨n, hn⟩, hkeeps⟩ := mem_runs hr
  rw [hcommon, hn] at hkeeps
  rw [hcommon, hn, h.turns_eq n hkeeps]

lemma edges_eq_nil (h : a.Beside b turns tol) : a.edges b tol = [] := by
  refine List.eq_nil_iff_forall_not_mem.mpr fun r hr => ?_
  obtain ⟨hrun, hlong⟩ := mem_edges.mp hr
  rw [h.eq_common hrun] at hlong
  have hshort := mul_nonpos_of_nonpos_of_nonneg h.size_nonpos h.coaxial.regular.radius_pos.le
  exact absurd hlong (not_lt.mpr (hshort.trans h.tol_nonneg))

/-- Arcs side by side share no run. -/
lemma noEdge (h : a.Beside b turns coincidentTol) :
    (Segment.curve (.arc a)).NoEdge (.curve (.arc b)) := by
  obtain ⟨points, hoverlap, -⟩ := overlap_of_edges_eq_nil h.coaxial h.tol_nonneg h.edges_eq_nil
  exact ⟨_, (intersect_eq_overlap h.coaxial _ radiusTol_pos).trans hoverlap, nofun⟩

/-- If what they have in common is a point, it is tried, and it is kept. -/
lemma mem_runs (h : a.Beside b turns tol) (hsize : (a.common b (turns * (2 * pi))).size = 0) :
    a.common b (turns * (2 * pi)) ∈ a.runs b tol := by
  obtain ⟨n, hn, hlow, hhigh⟩ := exists_tried h.coaxial
  refine mem_runs_of_tried hn (tried_of_nonneg h.coaxial hlow hhigh hsize.ge) ?_
  rw [hsize, zero_mul]
  exact neg_nonpos.mpr h.tol_nonneg

/-- Arcs side by side touch where they have a point in common. -/
lemma touches (h : a.Beside b turns coincidentTol)
    (hsize : (a.common b (turns * (2 * pi))).size = 0) :
    (Segment.curve (.arc a)).Touches (.curve (.arc b))
      (a.center.around a.radius (a.common b (turns * (2 * pi))).low) := by
  obtain ⟨points, hoverlap, hnear⟩ :=
    overlap_of_edges_eq_nil h.coaxial h.tol_nonneg h.edges_eq_nil
  have hperm : ((Curve.arc a).orderAlong (merged coincidentTol points)).Perm
      (merged coincidentTol points) := ordered_perm _ _
  refine ⟨_, (intersect_eq_overlap h.coaxial _ radiusTol_pos).trans hoverlap, ?_, fun p hp => ?_⟩
  · intro hnone
    rw [hnone] at hperm
    rw [merged_eq_nil_iff.mp hperm.nil_eq.symm, List.forall₂_nil_left_iff, List.map_eq_nil_iff]
      at hnear
    exact List.ne_nil_of_mem (h.mem_runs hsize) hnear
  · -- every contact is the one point
    have hmem := (merged_sublist _ points).subset (hperm.mem_iff.mp hp)
    obtain ⟨m, hm, hdist⟩ := exists_of_forall₂ hnear hmem
    obtain ⟨r, hr, rfl⟩ := List.mem_map.mp hm
    have hmiddle : r.middle = r.low := by
      rw [← h.eq_common hr, Run.size] at hsize
      rw [Run.middle]
      linarith
    rwa [contact, hmiddle, h.eq_common hr] at hdist

lemma touches_swap (h : a.Beside b turns coincidentTol)
    (hsize : (a.common b (turns * (2 * pi))).size = 0) :
    (Segment.curve (.arc b)).Touches (.curve (.arc a))
      (a.center.around a.radius (a.common b (turns * (2 * pi))).low) := by
  have htouches := h.symm.touches (by rw [common_swap, Run.mirror_size, hsize])
  have hturns := Point.around_add_turns a.center a.radius (a.common b (turns * (2 * pi))).low (-turns)
  rwa [common_swap, ← h.coaxial.around_eq, Run.mirror, sub_eq_add_neg, common, ← neg_mul,
    ← Int.cast_neg, ← common, hturns] at htouches

end Beside

/-- The part of the circle of an arc between two angles. -/
noncomputable def part (a : Arc ℝ) (angles : ℝ × ℝ) : Arc ℝ :=
  piece a.center a.radius angles
    (a.center.around a.radius angles.1, a.center.around a.radius angles.2)

/-- If an arc ends on its circle, its pieces are the parts between neighbouring angles. -/
lemma parts_eq_map (h : a.Regular) (inner : List ℝ) :
    a.parts inner = (consecutive (a.startAngle :: inner ++ [a.endAngle])).map a.part := by
  have hrow : a.start :: inner.map (a.center.around a.radius) ++ [a.stop]
      = (a.startAngle :: inner ++ [a.endAngle]).map (a.center.around a.radius) := by
    simp [← h.start_eq, ← h.stop_eq]
  rw [parts, hrow, consecutive_map, List.zipWith_map_right, List.zipWith_self]
  rfl

/-- A part of an arc is stored with whole turns taken off its angles. -/
lemma part_eq (h : a.Regular) (hlow : a.startAngle ≤ u.1) :
    ∃ k : ℕ, a.part u = ⟨a.center, a.radius, a.center.around a.radius u.1,
        a.center.around a.radius u.2, u.1 - k * (2 * pi), u.2 - k * (2 * pi), false⟩ ∧
      -pi ≤ u.1 - k * (2 * pi) ∧ u.1 - k * (2 * pi) ≤ pi := by
  obtain ⟨k, hrewind, hlow', hhigh'⟩ := Angle.rewind_spec u.2 (h.neg_pi_le.trans hlow)
  exact ⟨k, by simp only [part, piece, hrewind], hlow', hhigh'⟩

/-- A part of an arc ends on its circle too. -/
lemma Regular.part (h : a.Regular) (hlow : a.startAngle ≤ u.1) (hle : u.1 ≤ u.2)
    (hhigh : u.2 ≤ a.endAngle) : (a.part u).Regular := by
  obtain ⟨k, hpart, hlow', hhigh'⟩ := part_eq h hlow
  have haround : ∀ θ, a.center.around a.radius θ = a.center.around a.radius (θ - k * (2 * pi)) := by
    intro θ
    have hturns := Point.around_add_turns a.center a.radius θ (-k)
    rw [← hturns]
    congr 1
    push_cast
    ring
  rw [hpart]
  refine ⟨h.radius_pos, hlow', hhigh', sub_le_sub_right hle _, ?_, haround u.1, haround u.2⟩
  show u.2 - k * (2 * pi) < u.1 - k * (2 * pi) + 2 * pi
  linarith [h.end_lt_turn]

/-- **Parts of an arc that follow each other are side by side**, however the turns were taken off
their angles.  Between the last part and the first lies the rest of the circle. -/
lemma beside_part (h : a.Regular) (htol : 0 ≤ tol)
    (hrest : tol < a.radius * (a.startAngle + 2 * pi - a.endAngle)) (hlow : a.startAngle ≤ u.1)
    (hu : u.1 ≤ u.2) (hle : u.2 ≤ v.1) (hv : v.1 ≤ v.2) (hhigh : v.2 ≤ a.endAngle) :
    ∃ (k : ℕ) (turns : ℤ), (a.part u).Beside (a.part v) turns tol ∧
      (a.part u).common (a.part v) (turns * (2 * pi))
        = ⟨v.1 - k * (2 * pi), u.2 - k * (2 * pi), turns * (2 * pi)⟩ := by
  have hpart := h.part hlow hu (hle.trans (hv.trans hhigh))
  have hpart' := h.part (hlow.trans (hu.trans hle)) hv hhigh
  obtain ⟨k, hk, -⟩ := part_eq h hlow
  obtain ⟨m, hm, -⟩ := part_eq (u := v) h (hlow.trans (hu.trans hle))
  have hcommon : ∀ n : ℤ, (a.part u).common (a.part v) (n * (2 * pi))
      = ⟨max (u.1 - k * (2 * pi)) (v.1 + (n - m) * (2 * pi)),
        min (u.2 - k * (2 * pi)) (v.2 + (n - m) * (2 * pi)), n * (2 * pi)⟩ := by
    intro n
    rw [common, hk, hm]
    congr 2 <;> ring
  -- any other number of turns leaves the rest of the circle between the parts
  have hgap : ∀ n : ℤ, n ≠ m - k →
      ((a.part u).common (a.part v) (n * (2 * pi))).size
        ≤ -(a.startAngle + 2 * pi - a.endAngle) := by
    intro n hn
    have hpi := turn_pos
    rw [hcommon, Run.size]
    rcases lt_or_gt_of_ne hn with hbefore | hafter
    · have hmul : ((n + 1 : ℤ) : ℝ) * (2 * pi) ≤ ((m - k : ℤ) : ℝ) * (2 * pi) :=
        mul_le_mul_of_nonneg_right (by exact_mod_cast Int.add_one_le_of_lt hbefore) hpi.le
      push_cast at hmul
      refine (sub_le_sub (min_le_right _ _) (le_max_left _ _)).trans ?_
      linarith
    · have hmul : ((m - k + 1 : ℤ) : ℝ) * (2 * pi) ≤ (n : ℝ) * (2 * pi) :=
        mul_le_mul_of_nonneg_right (by exact_mod_cast Int.add_one_le_of_lt hafter) hpi.le
      push_cast at hmul
      refine (sub_le_sub (min_le_left _ _) (le_max_right _ _)).trans ?_
      linarith
  have hshared : (a.part u).common (a.part v) ((m - k : ℤ) * (2 * pi))
      = ⟨v.1 - k * (2 * pi), u.2 - k * (2 * pi), (m - k : ℤ) * (2 * pi)⟩ := by
    have hshift : ((m - k : ℤ) : ℝ) - m = -k := by push_cast; ring
    rw [hcommon, hshift, neg_mul, ← sub_eq_add_neg, ← sub_eq_add_neg,
      max_eq_right (by linarith), min_eq_left (by linarith)]
  refine ⟨k, m - k, ⟨⟨hpart, hpart', rfl, rfl⟩, htol, fun n hkeeps => ?_, ?_⟩, hshared⟩
  · by_contra hn
    have hfar := mul_le_mul_of_nonneg_left (hgap n hn) h.radius_pos.le
    have hradius : (a.part u).radius = a.radius := rfl
    rw [hradius] at hkeeps
    linarith
  · rw [hshared, Run.size]
    linarith

/-- The parts of an arc that ends on its circle are side by side. -/
lemma sideBySide_parts (h : a.Regular)
    (hrest : coincidentTol < a.radius * (a.startAngle + 2 * pi - a.endAngle)) {inner : List ℝ}
    (hrow : (a.startAngle :: inner ++ [a.endAngle]).IsChain (· ≤ ·)) :
    Segment.SideBySide ((a.parts inner).map (Segment.curve ∘ .arc)) := by
  have hbounds : ∀ u ∈ consecutive (a.startAngle :: inner ++ [a.endAngle]),
      a.startAngle ≤ u.1 ∧ u.1 ≤ u.2 ∧ u.2 ≤ a.endAngle := by
    intro u hu
    obtain ⟨hfirst, hsecond⟩ := mem_of_mem_consecutive hu
    exact ⟨(mem_row_of_isChain hrow hfirst).1, rel_of_mem_consecutive hrow hu,
      (mem_row_of_isChain hrow hsecond).2⟩
  rw [parts_eq_map h, List.map_map]
  refine .of_row hrow (fun u hu v hv hle => ?_) fun u hu v hv heq => ?_
  · obtain ⟨hlow, hu, -⟩ := hbounds u hu
    obtain ⟨-, hv, hhigh⟩ := hbounds v hv
    obtain ⟨k, turns, hbeside, -⟩ :=
      beside_part h coincidentTol_pos.le hrest hlow hu hle hv hhigh
    exact ⟨hbeside.noEdge, hbeside.symm.noEdge⟩
  · obtain ⟨hlow, hu, -⟩ := hbounds u hu
    obtain ⟨-, hv, hhigh⟩ := hbounds v hv
    obtain ⟨k, turns, hbeside, hcommon⟩ :=
      beside_part h coincidentTol_pos.le hrest hlow hu heq.le hv hhigh
    have hcut : (a.part u).traceStop = (a.part v).traceStart :=
      congrArg (a.center.around a.radius) heq
    have hsize : ((a.part u).common (a.part v) (turns * (2 * pi))).size = 0 := by
      rw [hcommon, Run.size, heq, sub_self]
    have hpoint : (a.part u).center.around (a.part u).radius
        ((a.part u).common (a.part v) (turns * (2 * pi))).low = (a.part u).traceStop := by
      have hturns := Point.around_add_turns a.center a.radius v.1 (-k)
      rw [hcut, hcommon, sub_eq_add_neg, ← neg_mul]
      push_cast at hturns
      exact hturns
    have htouches := hbeside.touches hsize
    have htouches' := hbeside.touches_swap hsize
    rw [hpoint] at htouches htouches'
    exact ⟨hcut, htouches, htouches'⟩

lemma Regular.reverse (h : a.Regular) : a.reverse.Regular :=
  ⟨h.radius_pos, h.neg_pi_le, h.le_pi, h.start_le_end, h.end_lt_turn,
    (start_reverse a).trans h.start_eq, (stop_reverse a).trans h.stop_eq⟩

/-- **The pieces of an arc are side by side**, in whichever direction it was drawn. -/
lemma sideBySide_cut (h : a.Regular)
    (hrest : coincidentTol < a.radius * (a.startAngle + 2 * pi - a.endAngle))
    (points : List (Point ℝ)) (htol : 0 ≤ tol) :
    ∃ pieces, a.cut points tol = .ok pieces ∧
      Segment.SideBySide (pieces.map (Segment.curve ∘ .arc)) := by
  have hforward : ∀ {b : Arc ℝ}, b.Regular →
      coincidentTol < b.radius * (b.startAngle + 2 * pi - b.endAngle) → b.clockwise = false →
      ∃ pieces, b.cut points tol = .ok pieces ∧
        Segment.SideBySide (pieces.map (Segment.curve ∘ .arc)) := by
    intro b hb hrest hclockwise
    refine ⟨_, cut_eq hclockwise points tol, ?_⟩
    split
    · exact .whole _
    · next hkept =>
        have hne : b.cutAngles points tol ≠ [] := by simpa using hkept
        exact sideBySide_parts hb hrest (isChain_cutAngles hb.radius_pos htol hne)
  cases hclockwise : a.clockwise with
  | false => exact hforward h hrest hclockwise
  | true =>
      -- the other way round the arc is counter-clockwise
      obtain ⟨pieces, hcut, hsides⟩ :=
        hforward h.reverse hrest (by rw [Arc.reverse, hclockwise]; rfl)
      refine ⟨pieces.reverse.map Arc.reverse, ?_, hsides.reverse⟩
      rw [← reverse_reverse a, cut_reverse, hcut]
      rfl

end Arc

/-! ## The pieces of a split -/

namespace Segment

variable {s : Segment ℝ} {points : List (Point ℝ)} {pieces : List (Segment ℝ)}

/-- **The pieces of a split do not overlap.**  For every line, and for every arc whose ends are at its
radius, no two pieces share a run, and each touches the next one at the cut between them and nowhere
else, whichever of the two comes first. -/
theorem split_sideBySide (hs : s.Built) (hlevel : s.EndsLevel) (hcircle : s.isCircle = false)
    (hsplit : s.split points radiusTol = .ok pieces) : SideBySide pieces := by
  obtain ⟨hchecked, hcut⟩ := split_eq_ok_iff.mp hsplit
  obtain ⟨hcount, hon⟩ := checkCuts_ok_iff.mp hchecked
  rcases s with l | a | c
  · obtain ⟨parts, hparts, hsides⟩ := Line.sideBySide_cut (hs.line.mag_pos coincidentTol_pos.le)
      radiusTol_pos.le (by omega) hon
    change (l.cut points radiusTol >>= fun parts => pure (parts.map line)) = _ at hcut
    rw [hparts] at hcut
    cases hcut
    exact hsides
  · obtain ⟨hstart, hstop⟩ := Curve.dist_ends hs hlevel
    have hregular := hs.arc.regular hstart hstop
    -- ends that do not coincide leave more than a tolerance of the circle between them
    have hchord : coincidentTol < a.start.dist a.stop :=
      Point.lt_dist_of_not_agrees (Bool.eq_false_iff.mp hs.ends.apart)
    obtain ⟨parts, hparts, hsides⟩ := Arc.sideBySide_cut hregular
      (hchord.trans_le hregular.dist_le_rest) points radiusTol_pos.le
    change (a.cut points radiusTol >>= fun parts => pure (parts.map (curve ∘ .arc))) = _ at hcut
    rw [hparts] at hcut
    cases hcut
    exact hsides
  · cases hcircle

/-- The lower half is cut at its lowest point.  Its first piece is stored from half a turn to three
quarters, its second piece from a quarter below zero to zero. -/
theorem split_sideBySide_lowerHalf :
    Built (curve (.arc lowerHalf)) ∧ EndsLevel (curve (.arc lowerHalf)) ∧
      isCircle (curve (.arc lowerHalf)) = false ∧
      ∃ pieces, split (curve (.arc lowerHalf)) [(⟨0, -4, 0⟩ : Point ℝ)] radiusTol = .ok pieces ∧
        pieces.length = 2 ∧ SideBySide pieces := by
  have hradius : lowerHalf.radius = 4 := Point.dist_origin (by norm_num) (by norm_num)
  have hlevel : EndsLevel (curve (.arc lowerHalf)) :=
    hradius.trans (Point.dist_origin (by norm_num) (by norm_num)).symm
  exact ⟨built_lowerHalf, hlevel, rfl, _, split_lowerHalf, rfl,
    split_sideBySide built_lowerHalf hlevel rfl split_lowerHalf⟩

end Segment

end Contour
