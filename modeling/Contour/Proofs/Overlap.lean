import Contour.Proofs.Construction

/-!
# Arcs on one circle

The kernel moves the second arc by whole turns next to the first and compares what the two ranges of
angles have in common.  This file shows that nothing depends on which arc comes first.

* `Arc.Run.rank` — what decides between runs; `Arc.Run.greatest?_map` says that the greatest run
  does not depend on the order of the runs.
* `Arc.Coaxial`, `Arc.Cocircular` — two arcs on one circle, and two that are long enough for the
  tolerance.
* `Arc.common` — what two arcs share after a shift; `Arc.runs_swap` says that the runs seen from the
  other arc are the same ones, shifted back.
* `Arc.pointAt_near` — where the points of a run are.
* `Arc.overlap_swap` — both orders give matching results.
-/

namespace Contour

namespace Arc

variable {a b : Arc ℝ} {tol : ℝ}

/-! ## The greatest run -/

namespace Run

/-- What runs are compared by: their size first, then how close they start to angle zero. -/
noncomputable def rank (r : Run ℝ) : ℝ ×ₗ ℝ := toLex (r.size, -Angle.normalize r.low)

lemma exceeds_iff (r s : Run ℝ) : r.exceeds s = true ↔ s.rank < r.rank := by
  rw [exceeds, rank, rank, Prod.Lex.toLex_lt_toLex]
  by_cases hsize : r.size = s.size
  · simp [hsize]
  · simp [hsize, Ne.symm hsize]

lemma size_le_of_rank_le {r s : Run ℝ} (h : s.rank ≤ r.rank) : s.size ≤ r.size := by
  rw [rank, rank, Prod.Lex.toLex_le_toLex] at h
  rcases h with hlt | ⟨heq, -⟩
  · exact hlt.le
  · exact heq.le

/-- The run that is kept is one of those seen so far, and none of them exceeds it. -/
lemma foldl_spec (runs : List (Run ℝ)) (r : Run ℝ) :
    runs.foldl (fun best s => if s.exceeds best then s else best) r ∈ r :: runs ∧
      ∀ s ∈ r :: runs,
        s.rank ≤ (runs.foldl (fun best s => if s.exceeds best then s else best) r).rank := by
  induction runs generalizing r with
  | nil => simp
  | cons t rest ih =>
      obtain ⟨hmem, hle⟩ := ih (if t.exceeds r then t else r)
      rw [List.foldl_cons]
      have hkept : t.rank ≤ (if t.exceeds r then t else r).rank ∧
          r.rank ≤ (if t.exceeds r then t else r).rank ∧
          (if t.exceeds r then t else r) ∈ r :: t :: rest := by
        split_ifs with hexceeds
        · exact ⟨le_rfl, ((exceeds_iff t r).mp hexceeds).le, by simp⟩
        · exact ⟨not_lt.mp ((exceeds_iff t r).not.mp hexceeds), le_rfl, by simp⟩
      obtain ⟨ht, hr, hin⟩ := hkept
      have hhead := hle _ List.mem_cons_self
      refine ⟨?_, ?_⟩
      · rcases List.mem_cons.mp hmem with heq | hrest
        · rw [heq]; exact hin
        · exact List.mem_cons_of_mem _ (List.mem_cons_of_mem _ hrest)
      · intro s hs
        rcases List.mem_cons.mp hs with rfl | hs
        · exact hr.trans hhead
        · rcases List.mem_cons.mp hs with rfl | hs
          · exact ht.trans hhead
          · exact hle s (List.mem_cons_of_mem _ hs)

lemma greatest?_spec {runs : List (Run ℝ)} {r : Run ℝ} (h : greatest? runs = some r) :
    r ∈ runs ∧ ∀ s ∈ runs, s.rank ≤ r.rank := by
  cases runs with
  | nil => cases h
  | cons t rest =>
      cases h
      exact foldl_spec rest t

lemma greatest?_eq_none {runs : List (Run ℝ)} : greatest? runs = none ↔ runs = [] := by
  cases runs <;> simp [greatest?]

/-- **The greatest run does not depend on the order of the runs**, nor on how they are written, if
no two of them have one rank. -/
lemma greatest?_map {runs runs' : List (Run ℝ)} {f : Run ℝ → Run ℝ}
    (hperm : runs'.Perm (runs.map f)) (hrank : ∀ r ∈ runs, (f r).rank = r.rank)
    (hinj : ∀ r ∈ runs, ∀ s ∈ runs, r.rank = s.rank → r = s) :
    greatest? runs' = (greatest? runs).map f := by
  cases hbest : greatest? runs with
  | none =>
      rw [greatest?_eq_none] at hbest
      rw [hbest, List.map_nil] at hperm
      rw [hperm.eq_nil]
      rfl
  | some r =>
      obtain ⟨hr, hmax⟩ := greatest?_spec hbest
      cases hbest' : greatest? runs' with
      | none =>
          rw [greatest?_eq_none] at hbest'
          rw [hbest'] at hperm
          rw [List.map_eq_nil_iff.mp hperm.nil_eq.symm] at hr
          cases hr
      | some r' =>
          obtain ⟨hr', hmax'⟩ := greatest?_spec hbest'
          obtain ⟨s, hs, rfl⟩ := List.mem_map.mp (hperm.mem_iff.mp hr')
          have hle : s.rank ≤ r.rank := hmax s hs
          have hge : r.rank ≤ s.rank := by
            have := hmax' (f r) (hperm.mem_iff.mpr (List.mem_map_of_mem hr))
            rwa [hrank r hr, hrank s hs] at this
          rw [hinj r hr s hs (le_antisymm hge hle)]
          rfl

end Run

/-! ## Common ranges -/

/-- Two regular arcs on one circle. -/
structure Coaxial (a b : Arc ℝ) : Prop where
  regular : a.Regular
  regular' : b.Regular
  center_eq : b.center = a.center
  radius_eq : b.radius = a.radius

/-- Two arcs on one circle whose ends are more than four tolerances apart. -/
structure Cocircular (a b : Arc ℝ) (tol : ℝ) : Prop where
  tol_nonneg : 0 ≤ tol
  regular : a.Regular
  regular' : b.Regular
  center_eq : b.center = a.center
  radius_eq : b.radius = a.radius
  apart : 4 * tol < a.start.dist a.stop
  apart' : 4 * tol < b.start.dist b.stop

namespace Cocircular

protected lemma symm (h : Cocircular a b tol) : Cocircular b a tol :=
  ⟨h.tol_nonneg, h.regular', h.regular, h.center_eq.symm, h.radius_eq.symm, h.apart', h.apart⟩

lemma coaxial (h : Cocircular a b tol) : a.Coaxial b :=
  ⟨h.regular, h.regular', h.center_eq, h.radius_eq⟩

end Cocircular

/-- The rest of the circle of an arc is at least as long as the chord of the arc. -/
lemma Regular.dist_le_rest (h : a.Regular) :
    a.start.dist a.stop ≤ a.radius * (a.startAngle + 2 * Real.pi - a.endAngle) := by
  have hturn := Point.around_add_turns a.center a.radius a.startAngle 1
  have hchord := Point.dist_around_le a.center h.radius_pos.le
    (a.startAngle + (1 : ℤ) * (2 * Real.pi)) a.endAngle
  rw [hturn, ← h.start_eq, ← h.stop_eq, Int.cast_one, one_mul] at hchord
  rwa [abs_of_pos (sub_pos.mpr h.end_lt_turn)] at hchord

/-- What two arcs have in common once the second is shifted. -/
noncomputable def common (a b : Arc ℝ) (shift : ℝ) : Run ℝ :=
  ⟨max a.startAngle (b.startAngle + shift), min a.endAngle (b.endAngle + shift), shift⟩

/-- The same run, seen from the other arc. -/
noncomputable def Run.mirror (r : Run ℝ) : Run ℝ := ⟨r.low - r.shift, r.high - r.shift, -r.shift⟩

@[simp] lemma Run.mirror_size (r : Run ℝ) : r.mirror.size = r.size := by
  simp only [mirror, size]
  ring

lemma common_neg (a b : Arc ℝ) (shift : ℝ) : b.common a (-shift) = (a.common b shift).mirror := by
  simp only [common, Run.mirror, ← sub_eq_add_neg, Run.mk.injEq, and_true]
  constructor
  · rw [← max_sub_sub_right, add_sub_cancel_right, max_comm]
  · rw [← min_sub_sub_right, add_sub_cancel_right, min_comm]

/-- A run is kept if it misses by the tolerance at most. -/
noncomputable def keeps (a : Arc ℝ) (tol : ℝ) (r : Run ℝ) : Bool := -tol ≤ r.size * a.radius

/-- The shifts that matter, whichever arc comes first. -/
noncomputable def shifts : List ℝ := [-(2 * Real.pi), 0, 2 * Real.pi]

lemma filterMap_common (a b : Arc ℝ) (tol : ℝ) (shifts : List ℝ) :
    (shifts.filterMap fun shift =>
        if -tol ≤ (a.common b shift).size * a.radius then some (a.common b shift) else none)
      = (shifts.map (a.common b)).filter (a.keeps tol) := by
  induction shifts with
  | nil => rfl
  | cons shift rest ih =>
      rw [List.filterMap_cons, List.map_cons, List.filter_cons, ← ih, keeps]
      by_cases hkept : -tol ≤ (a.common b shift).size * a.radius <;> simp [hkept]

lemma keeps_eq_false {r : Run ℝ} {size : ℝ} (hradius : 0 < a.radius) (hle : r.size ≤ size)
    (hlt : size * a.radius < -tol) : a.keeps tol r = false := by
  have hmul := mul_le_mul_of_nonneg_right hle hradius.le
  simp only [keeps, decide_eq_false_iff_not, not_le]
  linarith

/-- An arc that starts later than another is too far away a turn later. -/
lemma keeps_next (h : Cocircular a b tol) (hle : a.startAngle ≤ b.startAngle) :
    a.keeps tol (a.common b (2 * Real.pi)) = false := by
  have hsize : (a.common b (2 * Real.pi)).size ≤ a.endAngle - (a.startAngle + 2 * Real.pi) := by
    have hhigh := min_le_left a.endAngle (b.endAngle + 2 * Real.pi)
    have hlow := le_max_right a.startAngle (b.startAngle + 2 * Real.pi)
    simp only [Run.size, common]
    linarith
  refine keeps_eq_false h.regular.radius_pos hsize ?_
  linarith [h.tol_nonneg, h.apart.trans_le h.regular.dist_le_rest]

/-- An arc that starts before another is too far away a turn earlier. -/
lemma keeps_previous (h : Cocircular a b tol) (hlt : b.startAngle < a.startAngle) :
    a.keeps tol (a.common b (-(2 * Real.pi))) = false := by
  have hrest := h.apart'.trans_le h.regular'.dist_le_rest
  rw [h.radius_eq] at hrest
  have hsize : (a.common b (-(2 * Real.pi))).size
      ≤ b.endAngle - (b.startAngle + 2 * Real.pi) := by
    have hhigh := min_le_right a.endAngle (b.endAngle + -(2 * Real.pi))
    have hlow := le_max_left a.startAngle (b.startAngle + -(2 * Real.pi))
    simp only [Run.size, common]
    linarith
  refine keeps_eq_false h.regular.radius_pos hsize ?_
  linarith [h.tol_nonneg]

/-- Unwrapping moves the second arc by whole turns. -/
lemma exists_next (a b : Arc ℝ) :
    ∃ n : ℤ, Angle.unwrapAfter b.startAngle a.startAngle - b.startAngle = n * (2 * Real.pi) := by
  obtain ⟨k, -, hk⟩ := Angle.unwrapAfter_isLeast b.startAngle a.startAngle
  exact ⟨k, by rw [hk, Int.cast_natCast]; ring⟩

/-- The kernel tries two shifts, to the turn before and to the turn after the start of the first
arc. -/
lemma runs_eq_pair (a b : Arc ℝ) (tol : ℝ) :
    a.runs b tol = ([Angle.unwrapAfter b.startAngle a.startAngle - b.startAngle - 2 * Real.pi,
      Angle.unwrapAfter b.startAngle a.startAngle - b.startAngle].map (a.common b)).filter
        (a.keeps tol) := by
  rw [← filterMap_common]
  simp only [runs, larger_eq_max, smaller_eq_min, turn_eq]
  rfl

/-- Two shifts give two runs at most, whatever the numbers are. -/
lemma length_runs_le {α : Type} [Add α] [Sub α] [Mul α] [Div α] [Neg α] [LT α] [LE α] [DecidableLT α]
    [DecidableLE α] [OfNat α 2] [Elementary α] (a b : Arc α) (tol : α) :
    (a.runs b tol).length ≤ 2 :=
  List.length_filterMap_le _ _

lemma mem_runs {r : Run ℝ} (hr : r ∈ a.runs b tol) :
    r = a.common b r.shift ∧ (∃ n : ℤ, r.shift = n * (2 * Real.pi)) ∧
      -tol ≤ r.size * a.radius := by
  rw [runs_eq_pair, List.mem_filter, List.mem_map] at hr
  obtain ⟨⟨shift, hshift, rfl⟩, hkeeps⟩ := hr
  obtain ⟨n, hn⟩ := exists_next a b
  refine ⟨rfl, ?_, of_decide_eq_true hkeeps⟩
  simp only [hn, List.mem_cons, List.not_mem_nil, or_false] at hshift
  rcases hshift with rfl | rfl
  · exact ⟨n - 1, by simp only [common]; push_cast; ring⟩
  · exact ⟨n, rfl⟩

/-- **The common ranges are found among three shifts.**  The third one would leave the arcs too far
apart. -/
lemma runs_eq (h : Cocircular a b tol) :
    a.runs b tol = (shifts.map (a.common b)).filter (a.keeps tol) := by
  rw [runs_eq_pair, shifts]
  rcases le_or_gt a.startAngle b.startAngle with hle | hlt
  · rw [Angle.unwrapAfter_of_le hle, sub_self, zero_sub]
    simp [List.filter_cons, keeps_next h hle]
  · have hturn : a.startAngle ≤ b.startAngle + 2 * Real.pi := by
      linarith [h.regular.le_pi, h.regular'.neg_pi_le]
    rw [Angle.unwrapAfter_of_lt hlt hturn, add_sub_cancel_left, sub_self]
    simp [List.filter_cons, keeps_previous h hlt]

/-- **The runs seen from the other arc are the same ones**, shifted back and in the other order. -/
lemma runs_swap (h : Cocircular a b tol) :
    b.runs a tol = ((a.runs b tol).map Run.mirror).reverse := by
  rw [runs_eq h, runs_eq h.symm]
  have hkeeps : b.keeps tol ∘ Run.mirror = a.keeps tol := by
    funext r
    simp [keeps, h.radius_eq]
  have hcommon : shifts.map (b.common a) = ((shifts.map (a.common b)).map Run.mirror).reverse := by
    simp only [shifts, List.map_cons, List.map_nil, ← common_neg, neg_neg, neg_zero]
    rfl
  rw [hcommon, List.filter_reverse, List.filter_map, hkeeps]

/-- Different runs are shifted by different turns, and come in their order. -/
lemma runs_pairwise (h : Cocircular a b tol) :
    (a.runs b tol).Pairwise fun r s => r.shift + 2 * Real.pi ≤ s.shift := by
  have hturn := turn_pos
  rw [runs_eq h]
  refine List.Pairwise.filter _ (List.pairwise_map.mpr ?_)
  simp only [shifts, common, List.pairwise_cons, List.mem_cons, List.not_mem_nil, or_false,
    forall_eq_or_imp, forall_eq, List.Pairwise.nil, and_true, false_imp_iff, implies_true]
  exact ⟨⟨by linarith, by linarith⟩, by linarith⟩

lemma high_lt_low (h : Cocircular a b tol) {r s : Run ℝ} (hr : r ∈ a.runs b tol)
    (hs : s ∈ a.runs b tol) (hshift : r.shift + 2 * Real.pi ≤ s.shift) : r.high < s.low := by
  obtain ⟨hrun, -, -⟩ := mem_runs hr
  obtain ⟨hrun', -, -⟩ := mem_runs hs
  rw [hrun, hrun']
  calc (a.common b r.shift).high ≤ b.endAngle + r.shift := min_le_right _ _
    _ < b.startAngle + s.shift := by linarith [h.regular'.end_lt_turn]
    _ ≤ (a.common b s.shift).low := le_max_right _ _

/-- No two runs of positive size have one rank. -/
lemma rank_ne (h : Cocircular a b tol) {r s : Run ℝ} (hr : r ∈ a.runs b tol)
    (hs : s ∈ a.runs b tol) (hrsize : 0 ≤ r.size) (hssize : 0 ≤ s.size)
    (hshift : r.shift + 2 * Real.pi ≤ s.shift) : r.rank ≠ s.rank := by
  have hlt := high_lt_low h hr hs hshift
  have hlow : a.startAngle ≤ r.low := by
    rw [(mem_runs hr).1]
    exact le_max_left _ _
  have hhigh : s.high ≤ a.endAngle := by
    rw [(mem_runs hs).1]
    exact min_le_left _ _
  rw [Run.size] at hrsize hssize
  intro heq
  have hnormal : Angle.normalize r.low = Angle.normalize s.low :=
    neg_injective (congrArg (fun k => (ofLex k).2) heq)
  refine Angle.normalize_ne_of_lt (by linarith) ?_ hnormal
  linarith [h.regular.end_lt_turn]

lemma mirror_rank {r : Run ℝ} (hr : r ∈ a.runs b tol) :
    r.mirror.rank = r.rank := by
  obtain ⟨-, ⟨n, hn⟩, -⟩ := mem_runs hr
  have hnormal : Angle.normalize r.mirror.low = Angle.normalize r.low := by
    refine (Angle.normalize_eq_iff _ _).mpr ⟨-n, ?_⟩
    simp only [Run.mirror, hn]
    push_cast
    ring
  rw [Run.rank, Run.rank, Run.mirror_size, hnormal]

noncomputable def edges (a b : Arc ℝ) (tol : ℝ) : List (Run ℝ) :=
  (a.runs b tol).filter fun r => tol < r.size * a.radius

lemma mem_edges {r : Run ℝ} : r ∈ a.edges b tol ↔ r ∈ a.runs b tol ∧ tol < r.size * a.radius := by
  simp [edges]

lemma edges_swap (h : Cocircular a b tol) :
    b.edges a tol = ((a.edges b tol).map Run.mirror).reverse := by
  rw [edges, edges, runs_swap h, List.filter_reverse, List.filter_map, h.radius_eq]
  congr 3
  funext r
  simp

/-- **The longest common run is the same from both arcs.** -/
lemma greatest?_swap (h : Cocircular a b tol) :
    Run.greatest? (b.edges a tol) = (Run.greatest? (a.edges b tol)).map Run.mirror := by
  have hsize : ∀ r ∈ a.edges b tol, 0 ≤ r.size := by
    intro r hr
    have := h.tol_nonneg.trans_lt (mem_edges.mp hr).2
    exact (pos_of_mul_pos_left this h.regular.radius_pos.le).le
  have hpair : (a.edges b tol).Pairwise fun r s => r.rank ≠ s.rank := by
    refine List.Pairwise.imp_of_mem ?_ ((runs_pairwise h).filter _)
    intro r s hr hs hshift
    exact rank_ne h (mem_edges.mp hr).1 (mem_edges.mp hs).1 (hsize r hr) (hsize s hs) hshift
  have hinj : ∀ r ∈ a.edges b tol, ∀ s ∈ a.edges b tol, r.rank = s.rank → r = s :=
    List.Pairwise.forall_of_forall_of_flip (fun _ _ _ => rfl)
      (hpair.imp fun hne heq => absurd heq hne) (hpair.imp fun hne heq => absurd heq.symm hne)
  refine Run.greatest?_map ?_ (fun r hr => mirror_rank (mem_edges.mp hr).1) hinj
  rw [edges_swap h]
  exact List.reverse_perm _

/-! ## Points of runs -/

/-- The point of a run at an angle lies within the tolerance of the point of the circle there, and
is that point unless an end of an arc takes its place. -/
lemma pointAt_near (h : a.Coaxial b) (htol : 0 ≤ tol) {shift : ℝ} {n : ℤ}
    (hshift : shift = n * (2 * Real.pi)) (angle : ℝ) :
    ∃ p, a.pointAt b shift angle tol = .ok p ∧
      p.dist (a.center.around a.radius angle) ≤ tol := by
  have hends : ∀ e ∈ [(a.startAngle, a.start), (a.endAngle, a.stop),
      (b.startAngle + shift, b.start), (b.endAngle + shift, b.stop)],
      e.2 = a.center.around a.radius e.1 := by
    simp only [List.forall_mem_cons, List.not_mem_nil, false_imp_iff, implies_true, and_true]
    refine ⟨h.regular.start_eq, h.regular.stop_eq, ?_, ?_⟩
    · rw [hshift, Point.around_add_turns, ← h.center_eq, ← h.radius_eq]
      exact h.regular'.start_eq
    · rw [hshift, Point.around_add_turns, ← h.center_eq, ← h.radius_eq]
      exact h.regular'.stop_eq
  unfold pointAt
  dsimp only
  split
  · next e hfind =>
      refine ⟨e.2, rfl, ?_⟩
      have hnear : |e.1 - angle| * a.radius ≤ tol := by simpa using List.find?_some hfind
      rw [hends e (List.mem_of_find?_eq_some hfind)]
      refine (Point.dist_around_le a.center h.regular.radius_pos.le _ _).trans ?_
      rwa [mul_comm]
  · refine ⟨_, Point.polar_eq _ _ _, ?_⟩
    rw [Point.dist_self]
    exact htol

lemma around_sub_shift (h : Cocircular a b tol) {r : Run ℝ} (hr : r ∈ a.runs b tol) (angle : ℝ) :
    b.center.around b.radius (angle - r.shift) = a.center.around a.radius angle := by
  obtain ⟨-, ⟨n, hn⟩, -⟩ := mem_runs hr
  have hturns := Point.around_add_turns a.center a.radius angle (-n)
  rw [h.center_eq, h.radius_eq, ← hturns, hn]
  congr 1
  push_cast
  ring

/-- The angle in the middle of a run, where a contact is reported. -/
noncomputable def Run.middle (r : Run ℝ) : ℝ := 0.5 * (r.low + r.high)

lemma Run.middle_mem (r : Run ℝ) : r.middle ∈ Set.uIcc r.low r.high := by
  rw [Run.middle, Set.mem_uIcc]
  rcases le_total r.low r.high with hle | hle
  · exact .inl ⟨by linarith, by linarith⟩
  · exact .inr ⟨by linarith, by linarith⟩

lemma Run.mirror_middle (r : Run ℝ) : r.mirror.middle = r.middle - r.shift := by
  simp only [middle, mirror]
  ring

/-- The place of the contact that a short run stands for. -/
noncomputable def contact (a : Arc ℝ) (r : Run ℝ) : Point ℝ := a.center.around a.radius r.middle

lemma contacts_swap (h : Cocircular a b tol) :
    (b.runs a tol).map b.contact = ((a.runs b tol).map a.contact).reverse := by
  rw [runs_swap h, List.map_reverse, List.map_map]
  congr 1
  refine List.map_congr_left fun r hr => ?_
  rw [Function.comp_apply, contact, contact, Run.mirror_middle, around_sub_shift h hr]

/-- The contact of a short run is near both of its ends. -/
lemma contact_near (hradius : 0 < a.radius) {r : Run ℝ} (hsize : |r.size * a.radius| ≤ tol) :
    (a.contact r).dist (a.center.around a.radius r.low) ≤ tol / 2 ∧
      (a.contact r).dist (a.center.around a.radius r.high) ≤ tol / 2 := by
  have hlow : r.middle - r.low = r.size / 2 := by rw [Run.middle, Run.size]; ring
  have hhigh : r.middle - r.high = -(r.size / 2) := by rw [Run.middle, Run.size]; ring
  have harc : a.radius * |r.size / 2| ≤ tol / 2 := by
    rw [abs_mul, abs_of_pos hradius] at hsize
    rw [abs_div, abs_two]
    linarith
  constructor
  · refine (Point.dist_around_le a.center hradius.le _ _).trans ?_
    rwa [hlow]
  · refine (Point.dist_around_le a.center hradius.le _ _).trans ?_
    rwa [hhigh, abs_neg]

/-- Of two runs the first starts with the first arc, and the last one ends with it. -/
lemma ends_of_two (h : Cocircular a b tol) {r s : Run ℝ} (hr : r ∈ a.runs b tol)
    (hs : s ∈ a.runs b tol) (hshift : r.shift + 2 * Real.pi ≤ s.shift) :
    r.low = a.startAngle ∧ s.high = a.endAngle := by
  have htol := h.tol_nonneg
  have hradius := h.regular.radius_pos
  have hrest := h.apart.trans_le h.regular.dist_le_rest
  obtain ⟨hrun, -, hrkept⟩ := mem_runs hr
  obtain ⟨hrun', -, hskept⟩ := mem_runs hs
  have hrhigh : r.high ≤ b.endAngle + r.shift := by rw [hrun]; exact min_le_right _ _
  have hrlow : a.startAngle ≤ r.low := by rw [hrun]; exact le_max_left _ _
  have hslow : b.startAngle + s.shift ≤ s.low := by rw [hrun']; exact le_max_right _ _
  have hshigh : s.high ≤ a.endAngle := by rw [hrun']; exact min_le_left _ _
  rw [Run.size] at hrkept hskept
  constructor
  · have hle : b.startAngle + r.shift ≤ a.startAngle := by
      refine le_of_mul_le_mul_right ?_ hradius
      nlinarith
    rw [hrun]
    exact max_eq_left hle
  · have hle : a.endAngle ≤ b.endAngle + s.shift := by
      refine le_of_mul_le_mul_right ?_ hradius
      nlinarith
    rw [hrun']
    exact min_eq_left hle

/-- **Two contacts are at different ends.**  Runs no longer than the tolerance lie at the start and
at the stop of the first arc, which are more than four tolerances apart. -/
lemma contact_apart (h : Cocircular a b tol) {r s : Run ℝ} (hr : r ∈ a.runs b tol)
    (hs : s ∈ a.runs b tol) (hrsize : r.size * a.radius ≤ tol) (hssize : s.size * a.radius ≤ tol)
    (hshift : r.shift + 2 * Real.pi ≤ s.shift) :
    3 * tol < (a.contact r).dist (a.contact s) := by
  obtain ⟨hlow, hhigh⟩ := ends_of_two h hr hs hshift
  have hnear := (contact_near h.regular.radius_pos
    (abs_le.mpr ⟨(mem_runs hr).2.2, hrsize⟩)).1
  have hnear' := (contact_near h.regular.radius_pos
    (abs_le.mpr ⟨(mem_runs hs).2.2, hssize⟩)).2
  rw [hlow, ← h.regular.start_eq] at hnear
  rw [hhigh, ← h.regular.stop_eq] at hnear'
  have hfirst := Point.dist_triangle a.start (a.contact r) a.stop
  have hsecond := Point.dist_triangle (a.contact r) (a.contact s) a.stop
  rw [Point.dist_comm a.start (a.contact r)] at hfirst
  linarith [h.apart]

/-- Two points within a tolerance are one. -/
noncomputable def merged (tol : ℝ) : List (Point ℝ) → List (Point ℝ)
  | [p, q] => if p.dist q ≤ tol then [p] else [p, q]
  | points => points

lemma merged_sublist (tol : ℝ) (points : List (Point ℝ)) : (merged tol points).Sublist points := by
  unfold merged
  split
  · split_ifs
    · simp
    · exact List.Sublist.refl _
  · exact List.Sublist.refl _

lemma merged_eq_nil_iff {points : List (Point ℝ)} : merged tol points = [] ↔ points = [] := by
  unfold merged
  split
  · split_ifs <;> simp
  · rfl

/-- Runs that only touch are reported by a point near the middle of each, and two of these points
may be one. -/
lemma touching_eq (h : a.Coaxial b) (htol : 0 ≤ tol) {runs : List (Run ℝ)}
    (hturns : ∀ r ∈ runs, ∃ n : ℤ, r.shift = n * (2 * Real.pi)) :
    ∃ points, a.touching b runs tol = .ok (merged tol points) ∧
      List.Forall₂ (fun p m => p.dist m ≤ tol) points (runs.map a.contact) := by
  have hpoint : ∀ r ∈ runs, ∃ p, a.pointAt b r.shift r.middle tol = .ok p ∧
      p.dist (a.contact r) ≤ tol := by
    intro r hr
    obtain ⟨n, hn⟩ := hturns r hr
    exact pointAt_near h htol hn r.middle
  obtain ⟨points, hpoints, hnear⟩ := mapM_ok hpoint
  refine ⟨points, ?_, List.forall₂_map_right_iff.mpr hnear⟩
  unfold touching
  change (runs.mapM fun r => a.pointAt b r.shift r.middle tol) >>= _ = _
  rw [hpoints]
  -- only a list of two points is looked at
  rcases points with _ | ⟨p, _ | ⟨q, _ | ⟨s, rest⟩⟩⟩ <;> rfl

/-- Runs that only touch at different ends are reported by a point near the middle of each. -/
lemma touching_spec (h : Cocircular a b tol) {runs : List (Run ℝ)}
    (hturns : ∀ r ∈ runs, ∃ n : ℤ, r.shift = n * (2 * Real.pi))
    (hapart : runs.Pairwise fun r s => 3 * tol < (a.contact r).dist (a.contact s)) :
    ∃ points, a.touching b runs tol = .ok points ∧
      List.Forall₂ (fun p m => p.dist m ≤ tol) points (runs.map a.contact) := by
  obtain ⟨points, hpoints, hnear⟩ := touching_eq h.coaxial h.tol_nonneg hturns
  refine ⟨points, ?_, hnear⟩
  rw [hpoints]
  unfold merged
  split
  · next p q =>
      -- two points near the middles of two runs are not one
      obtain ⟨r, rest, hp, hrest, rfl⟩ :=
        List.forall₂_cons_left_iff.mp (List.forall₂_map_right_iff.mp hnear)
      obtain ⟨s, rest', hq, -, rfl⟩ := List.forall₂_cons_left_iff.mp hrest
      have hlt := List.rel_of_pairwise_cons hapart List.mem_cons_self
      have hfirst := Point.dist_triangle (a.contact r) p (a.contact s)
      have hsecond := Point.dist_triangle p q (a.contact s)
      rw [Point.dist_comm _ p] at hfirst
      rw [if_neg (by linarith [h.tol_nonneg])]
  · rfl

/-! ## Both orders -/

/-- If runs are longer than the tolerance, the ends of the greatest one are reported. -/
lemma overlap_of_edge (h : a.Coaxial b) (htol : 0 ≤ tol) {run : Run ℝ}
    (hbest : Run.greatest? (a.edges b tol) = some run) :
    ∃ p q, a.overlap b tol = .ok (.run p q) ∧
      p.dist (a.center.around a.radius run.low) ≤ tol ∧
      q.dist (a.center.around a.radius run.high) ≤ tol := by
  obtain ⟨-, ⟨n, hn⟩, -⟩ := mem_runs (mem_edges.mp (Run.greatest?_spec hbest).1).1
  obtain ⟨p, hp, hpnear⟩ := pointAt_near h htol hn run.low
  obtain ⟨q, hq, hqnear⟩ := pointAt_near h htol hn run.high
  refine ⟨p, q, ?_, hpnear, hqnear⟩
  rw [edges] at hbest
  simp only [overlap, hbest, hp, hq]
  rfl

/-- Otherwise every run is a contact, and points near the middles are reported. -/
lemma overlap_of_edges_eq_nil (h : a.Coaxial b) (htol : 0 ≤ tol) (hedges : a.edges b tol = []) :
    ∃ points, a.overlap b tol = .ok (.crossing ((Curve.arc a).orderAlong (merged tol points))) ∧
      List.Forall₂ (fun p m => p.dist m ≤ tol) points ((a.runs b tol).map a.contact) := by
  obtain ⟨points, hpoints, hnear⟩ := touching_eq h htol
    fun r (hr : r ∈ a.runs b tol) => (mem_runs hr).2.1
  refine ⟨points, ?_, hnear⟩
  rw [edges] at hedges
  simp only [overlap, hedges, Run.greatest?, hpoints]
  rfl

/-- Contacts at different ends are all reported. -/
lemma overlap_of_contacts (h : Cocircular a b tol)
    (hbest : Run.greatest? (a.edges b tol) = none) :
    ∃ points ordered, a.overlap b tol = .ok (.crossing ordered) ∧ ordered.Perm points ∧
      List.Forall₂ (fun p m => p.dist m ≤ tol) points ((a.runs b tol).map a.contact) := by
  have hshort : ∀ r ∈ a.runs b tol, r.size * a.radius ≤ tol := by
    intro r hr
    by_contra hlong
    have hmem := mem_edges.mpr ⟨hr, not_le.mp hlong⟩
    rw [Run.greatest?_eq_none.mp hbest] at hmem
    cases hmem
  obtain ⟨points, hpoints, hnear⟩ := touching_spec h (fun r hr => (mem_runs hr).2.1)
    (List.Pairwise.imp_of_mem (fun hr hs => contact_apart h hr hs (hshort _ hr) (hshort _ hs))
      (runs_pairwise h))
  refine ⟨points, (Curve.arc a).orderAlong points, ?_, ordered_perm _ _, hnear⟩
  rw [edges] at hbest
  simp only [overlap, hbest, hpoints]
  rfl

/-- **Arcs on one circle give matching results in both orders.** -/
theorem overlap_swap (h : Cocircular a b tol) :
    ∃ r s, a.overlap b tol = .ok r ∧ b.overlap a tol = .ok s ∧ r.flag.swap = r.flag ∧
      r.Matches (2 * tol) s := by
  have hswap := greatest?_swap h
  rw [two_mul]
  cases hbest : Run.greatest? (a.edges b tol) with
  | some run =>
      rw [hbest, Option.map_some] at hswap
      have hmem := (mem_edges.mp (Run.greatest?_spec hbest).1).1
      obtain ⟨p, q, hab, hp, hq⟩ := overlap_of_edge h.coaxial h.tol_nonneg hbest
      obtain ⟨p', q', hba, hp', hq'⟩ := overlap_of_edge h.symm.coaxial h.tol_nonneg hswap
      rw [Run.mirror, around_sub_shift h hmem] at hp' hq'
      refine ⟨_, _, hab, hba, rfl, .of_matched rfl (Matched.pair_iff.mpr (.inl ⟨?_, ?_⟩))⟩
      · exact Point.dist_le_of_near hp hp'
      · exact Point.dist_le_of_near hq hq'
  | none =>
      rw [hbest, Option.map_none] at hswap
      obtain ⟨points, ordered, hab, hperm, hnear⟩ := overlap_of_contacts h hbest
      obtain ⟨points', ordered', hba, hperm', hnear'⟩ := overlap_of_contacts h.symm hswap
      rw [contacts_swap h] at hnear'
      refine ⟨_, _, hab, hba, rfl, .of_matched rfl (Matched.perm ?_ hperm hperm'.symm)⟩
      exact Matched.of_near hnear hnear' (List.reverse_perm _).symm

end Arc

end Contour
