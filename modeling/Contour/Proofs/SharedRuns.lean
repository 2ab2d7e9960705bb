import Contour.Proofs.Overlap

/-!
# What two arcs on one circle share

Two arcs on one circle are sets of points, and a run that they share is a part of the circle all of
whose points lie on both.  The kernel compares two unwrapped ranges of angles for two shifts of the
second only.  This file says that nothing is lost by that.

* `Arc.trace`, `Arc.SharesRun`, `Arc.LongestRun`, `Arc.ComesWithin` — the geometry, which knows of
  points only.
* `Arc.Regular.exists_turn` — a part of the circle that lies on an arc lies between its angles after
  one number of turns for all of it.
* `Arc.exists_common_of_sharesRun`, `Arc.comesWithin_iff` — shared runs and nearness in terms of the
  ranges after a shift.
* `Arc.tried_of_nonneg`, `Arc.mem_runs_or_edge` — no other shift contributes.
* `Arc.intersect_shared` — what is reported of two arcs on one circle.
-/

namespace Contour

open Real (pi)

/-- Two angles name one point of a circle iff they differ by whole turns. -/
lemma Point.around_eq_iff (center : Point ℝ) {radius : ℝ} (hradius : radius ≠ 0) (θ φ : ℝ) :
    center.around radius θ = center.around radius φ ↔ ∃ n : ℤ, θ = φ + n * (2 * pi) := by
  constructor
  · intro heq
    simp only [around, Point.mk.injEq, add_right_inj, mul_right_inj' hradius, and_true] at heq
    have hangle := Real.Angle.cos_sin_inj heq.1 heq.2
    obtain ⟨n, hn⟩ := Real.Angle.angle_eq_iff_two_pi_dvd_sub.mp hangle
    exact ⟨n, by linarith⟩
  · rintro ⟨n, rfl⟩
    exact around_add_turns center radius φ n

namespace Arc

variable {a b : Arc ℝ} {tol low high : ℝ}

/-! ## Points of arcs -/

/-- The points of an arc. -/
def trace (a : Arc ℝ) : Set (Point ℝ) :=
  {p | ∃ θ, a.startAngle ≤ θ ∧ θ ≤ a.endAngle ∧ p = a.center.around a.radius θ}

/-- A part of the circle of an arc, between two angles, whose points all lie on another arc too. -/
structure SharesRun (a b : Arc ℝ) (low high : ℝ) : Prop where
  low_le_high : low ≤ high
  on_both : ∀ θ, low ≤ θ → θ ≤ high → a.center.around a.radius θ ∈ a.trace ∩ b.trace

/-- A shared run that no shared run is longer than. -/
structure LongestRun (a b : Arc ℝ) (low high : ℝ) : Prop where
  shared : a.SharesRun b low high
  longest : ∀ low' high', a.SharesRun b low' high' → high' - low' ≤ high - low

/-- Two arcs have points that are no further apart along the circle than a length. -/
def ComesWithin (a b : Arc ℝ) (length : ℝ) : Prop :=
  ∃ θ φ, a.center.around a.radius θ ∈ a.trace ∧ b.center.around b.radius φ ∈ b.trace ∧
    a.radius * |θ - φ| ≤ length

lemma around_mem_trace (hradius : a.radius ≠ 0) (θ : ℝ) :
    a.center.around a.radius θ ∈ a.trace ↔
      ∃ n : ℤ, a.startAngle ≤ θ + n * (2 * pi) ∧ θ + n * (2 * pi) ≤ a.endAngle := by
  constructor
  · rintro ⟨φ, hlow, hhigh, heq⟩
    obtain ⟨n, hn⟩ := (Point.around_eq_iff a.center hradius φ θ).mp heq.symm
    exact ⟨n, hn ▸ hlow, hn ▸ hhigh⟩
  · rintro ⟨n, hlow, hhigh⟩
    exact ⟨_, hlow, hhigh, (Point.around_add_turns a.center a.radius θ n).symm⟩

/-- **One number of turns for a whole run.**  A run that could leave an arc at its end and come back
at its start would have to cross the gap in between. -/
lemma Regular.exists_turn (h : a.Regular) (hle : low ≤ high)
    (hsub : ∀ θ, low ≤ θ → θ ≤ high → a.center.around a.radius θ ∈ a.trace) :
    ∃ n : ℤ, a.startAngle ≤ low + n * (2 * pi) ∧ high + n * (2 * pi) ≤ a.endAngle := by
  have hradius := h.radius_pos.ne'
  have hgap := h.end_lt_turn
  obtain ⟨n, hstart, hend⟩ := (around_mem_trace hradius low).mp (hsub low le_rfl hle)
  refine ⟨n, hstart, ?_⟩
  by_contra hbeyond
  rw [not_le] at hbeyond
  -- an angle after the end of the arc, still on the run, and before the arc starts again
  obtain ⟨θ, hlow, hhigh⟩ := exists_between (lt_min hbeyond hgap)
  obtain ⟨hhigh, hturn⟩ := lt_min_iff.mp hhigh
  obtain ⟨k, hk, hk'⟩ := (around_mem_trace hradius (θ - n * (2 * pi))).mp
    (hsub _ (by linarith) (by linarith))
  have hpi := turn_pos
  rcases le_or_gt n k with hnk | hkn
  · have hmul : (n : ℝ) * (2 * pi) ≤ k * (2 * pi) :=
      mul_le_mul_of_nonneg_right (by exact_mod_cast hnk) hpi.le
    linarith
  · have hmul : ((k + 1 : ℤ) : ℝ) * (2 * pi) ≤ n * (2 * pi) :=
      mul_le_mul_of_nonneg_right (by exact_mod_cast Int.add_one_le_of_lt hkn) hpi.le
    push_cast at hmul
    linarith

/-! ## Ranges after a shift -/

namespace Coaxial

protected lemma symm (h : a.Coaxial b) : b.Coaxial a :=
  ⟨h.regular', h.regular, h.center_eq.symm, h.radius_eq.symm⟩

lemma around_eq (h : a.Coaxial b) (θ : ℝ) :
    a.center.around a.radius θ = b.center.around b.radius θ := by rw [h.center_eq, h.radius_eq]

end Coaxial

/-- A shared run lies in what the arcs have in common after some shift. -/
lemma exists_common_of_sharesRun (h : a.Coaxial b) (hshares : a.SharesRun b low high) :
    ∃ n k : ℤ, (a.common b (n * (2 * pi))).low ≤ low + k * (2 * pi) ∧
      high + k * (2 * pi) ≤ (a.common b (n * (2 * pi))).high := by
  obtain ⟨k, hlow, hhigh⟩ := h.regular.exists_turn hshares.low_le_high
    fun θ h1 h2 => (hshares.on_both θ h1 h2).1
  obtain ⟨m, hlow', hhigh'⟩ := h.regular'.exists_turn hshares.low_le_high
    fun θ h1 h2 => h.around_eq θ ▸ (hshares.on_both θ h1 h2).2
  refine ⟨k - m, k, max_le hlow ?_, le_min hhigh ?_⟩
  · push_cast; linarith
  · push_cast; linarith

/-- What the arcs have in common after a shift is a shared run. -/
lemma sharesRun_common (h : a.Coaxial b) {n : ℤ} (hsize : 0 ≤ (a.common b (n * (2 * pi))).size) :
    a.SharesRun b (a.common b (n * (2 * pi))).low (a.common b (n * (2 * pi))).high := by
  refine ⟨sub_nonneg.mp hsize, fun θ hlow hhigh => ⟨?_, ?_⟩⟩
  · exact ⟨θ, (le_max_left _ _).trans hlow, hhigh.trans (min_le_left _ _), rfl⟩
  · rw [h.around_eq, around_mem_trace h.regular'.radius_pos.ne']
    have hstart := (le_max_right _ _).trans hlow
    have hend := hhigh.trans (min_le_right _ _)
    refine ⟨-n, ?_, ?_⟩
    · push_cast; linarith
    · push_cast; linarith

lemma size_of_sharesRun (h : a.Coaxial b) (hshares : a.SharesRun b low high) :
    ∃ n : ℤ, high - low ≤ (a.common b (n * (2 * pi))).size := by
  obtain ⟨n, k, hlow, hhigh⟩ := exists_common_of_sharesRun h hshares
  exact ⟨n, by rw [Run.size]; linarith⟩

/-- What is shorter than both arcs ends where one of them ends and starts where the other starts. -/
lemma ends_of_short {shift : ℝ} (hshort : (a.common b shift).size < a.sweep)
    (hshort' : (a.common b shift).size < b.sweep) :
    ((a.common b shift).low = b.startAngle + shift ∧ (a.common b shift).high = a.endAngle) ∨
      ((a.common b shift).low = a.startAngle ∧ (a.common b shift).high = b.endAngle + shift) := by
  rw [Run.size] at hshort hshort'
  rw [sweep] at hshort hshort'
  simp only [common] at hshort hshort' ⊢
  rcases max_choice a.startAngle (b.startAngle + shift) with hlow | hlow <;>
    rcases min_choice a.endAngle (b.endAngle + shift) with hhigh | hhigh <;>
    rw [hlow, hhigh] at hshort hshort' ⊢
  · exact absurd hshort (lt_irrefl _)
  · exact .inr ⟨rfl, rfl⟩
  · exact .inl ⟨rfl, rfl⟩
  · exact absurd hshort' (not_lt.mpr (by linarith))

/-- **Nearness in terms of a shift.**  A range of negative size is a gap between the arcs. -/
lemma comesWithin_iff (h : a.Coaxial b) {length : ℝ} (hlength : 0 ≤ length) :
    a.ComesWithin b length ↔
      ∃ n : ℤ, -length ≤ (a.common b (n * (2 * pi))).size * a.radius := by
  have hradius := h.regular.radius_pos
  have hle := h.regular.start_le_end
  have hle' := h.regular'.start_le_end
  constructor
  · rintro ⟨θ, φ, hθ, hφ, hnear⟩
    obtain ⟨k, hk, hk'⟩ := (around_mem_trace hradius.ne' θ).mp hθ
    obtain ⟨m, hm, hm'⟩ := (around_mem_trace h.regular'.radius_pos.ne' φ).mp hφ
    refine ⟨k - m, ?_⟩
    have hsize : -|θ - φ| ≤ (a.common b ((k - m : ℤ) * (2 * pi))).size := by
      obtain ⟨hneg, hpos⟩ := abs_le.mp (le_refl |θ - φ|)
      rw [Run.size, le_sub_iff_add_le', ← le_sub_iff_add_le]
      push_cast
      refine max_le ?_ ?_
      · rw [le_sub_iff_add_le]
        exact le_min (by linarith [abs_nonneg (θ - φ)]) (by linarith)
      · rw [le_sub_iff_add_le]
        exact le_min (by linarith) (by linarith [abs_nonneg (θ - φ)])
    have hmul := mul_le_mul_of_nonneg_right hsize hradius.le
    linarith
  · rintro ⟨n, hsize⟩
    have hturns := Point.around_add_turns b.center b.radius
    rcases le_or_gt 0 (a.common b (n * (2 * pi))).size with hpos | hneg
    · have hshared := (sharesRun_common h hpos).on_both _ le_rfl (sub_nonneg.mp hpos)
      refine ⟨_, _, hshared.1, h.around_eq _ ▸ hshared.2, ?_⟩
      rwa [sub_self, abs_zero, mul_zero]
    · obtain ⟨hlow, hhigh⟩ | ⟨hlow, hhigh⟩ := ends_of_short
        (hneg.trans_le (sub_nonneg.mpr hle)) (hneg.trans_le (sub_nonneg.mpr hle'))
      · refine ⟨a.endAngle, b.startAngle + n * (2 * pi), ⟨_, hle, le_rfl, rfl⟩, ?_, ?_⟩
        · exact ⟨_, le_rfl, hle', hturns _ n⟩
        · rw [Run.size, hlow, hhigh] at hsize hneg
          rw [abs_of_neg hneg]
          linarith
      · refine ⟨a.startAngle, b.endAngle + n * (2 * pi), ⟨_, le_rfl, hle, rfl⟩, ?_, ?_⟩
        · exact ⟨_, hle', le_rfl, hturns _ n⟩
        · rw [Run.size, hlow, hhigh] at hsize hneg
          rw [abs_sub_comm, abs_of_neg hneg]
          linarith

/-! ## The shifts that are tried -/

/-- The shift to the turn after the start of the first arc, and the turn before, are those that are
tried. -/
lemma exists_tried (h : a.Coaxial b) :
    ∃ n : ℤ, Angle.unwrapAfter b.startAngle a.startAngle - b.startAngle = n * (2 * pi) ∧
      a.startAngle ≤ b.startAngle + n * (2 * pi) ∧
      b.startAngle + n * (2 * pi) ≤ a.startAngle + 2 * pi := by
  obtain ⟨n, hn⟩ := exists_next a b
  have hstart := Angle.le_unwrapAfter b.startAngle a.startAngle
  have hbound : b.startAngle ≤ a.startAngle + 2 * pi := by
    linarith [h.regular'.le_pi, h.regular.neg_pi_le]
  have hturn := Angle.unwrapAfter_le hbound
  exact ⟨n, hn, by linarith, by linarith⟩

lemma mem_runs_of_tried {n m : ℤ}
    (hn : Angle.unwrapAfter b.startAngle a.startAngle - b.startAngle = n * (2 * pi))
    (hm : m = n - 1 ∨ m = n) (hkeeps : -tol ≤ (a.common b (m * (2 * pi))).size * a.radius) :
    a.common b (m * (2 * pi)) ∈ a.runs b tol := by
  rw [runs_eq_pair, hn, List.mem_filter]
  refine ⟨List.mem_map_of_mem ?_, decide_eq_true hkeeps⟩
  rcases hm with rfl | rfl
  · rw [show (n : ℝ) * (2 * pi) - 2 * pi = ((n - 1 : ℤ) : ℝ) * (2 * pi) by push_cast; ring]
    exact List.mem_cons_self
  · exact List.mem_cons_of_mem _ List.mem_cons_self

/-- What the arcs have in common is no larger than what is left of one after the other starts. -/
lemma size_le (a b : Arc ℝ) (shift : ℝ) :
    (a.common b shift).size ≤ a.endAngle - (b.startAngle + shift) ∧
      (a.common b shift).size ≤ b.endAngle + shift - a.startAngle :=
  ⟨sub_le_sub (min_le_left _ _) (le_max_right _ _),
    sub_le_sub (min_le_right _ _) (le_max_left _ _)⟩

/-- **No other shift makes the arcs overlap.** -/
lemma tried_of_nonneg (h : a.Coaxial b) {n m : ℤ} (hlow : a.startAngle ≤ b.startAngle + n * (2 * pi))
    (hhigh : b.startAngle + n * (2 * pi) ≤ a.startAngle + 2 * pi)
    (hsize : 0 ≤ (a.common b (m * (2 * pi))).size) : m = n - 1 ∨ m = n := by
  obtain ⟨hle, hle'⟩ := size_le a b (m * (2 * pi))
  have hend := h.regular.end_lt_turn
  have hend' := h.regular'.end_lt_turn
  have hbefore : m < n + 1 := by
    by_contra hge
    have hmul : ((n + 1 : ℤ) : ℝ) * (2 * pi) ≤ m * (2 * pi) :=
      mul_le_mul_of_nonneg_right (by exact_mod_cast not_lt.mp hge) turn_pos.le
    push_cast at hmul
    linarith
  have hafter : n - 2 < m := by
    by_contra hge
    have hmul : (m : ℝ) * (2 * pi) ≤ ((n - 2 : ℤ) : ℝ) * (2 * pi) :=
      mul_le_mul_of_nonneg_right (by exact_mod_cast not_lt.mp hge) turn_pos.le
    push_cast at hmul
    linarith
  omega

/-- Two arcs on one circle that are longer than two tolerances. -/
structure Ample (a b : Arc ℝ) (tol : ℝ) : Prop where
  coaxial : a.Coaxial b
  tol_nonneg : 0 ≤ tol
  long : 2 * tol < a.radius * a.sweep
  long' : 2 * tol < b.radius * b.sweep

namespace Ample

lemma radius_pos (h : Ample a b tol) : 0 < a.radius := h.coaxial.regular.radius_pos

/-- Two tolerances are less than the circle. -/
lemma lt_turn (h : Ample a b tol) : 2 * tol < a.radius * (2 * pi) := by
  refine h.long.trans (mul_lt_mul_of_pos_left ?_ h.radius_pos)
  rw [sweep]
  linarith [h.coaxial.regular.end_lt_turn]

lemma short_of_le (h : Ample a b tol) {size : ℝ} (hle : size * a.radius ≤ tol) :
    size < a.sweep ∧ size < b.sweep := by
  have hlong' := h.long'
  rw [h.coaxial.radius_eq] at hlong'
  constructor
  · refine lt_of_mul_lt_mul_right ?_ h.radius_pos.le
    linarith [h.long, h.tol_nonneg]
  · refine lt_of_mul_lt_mul_right ?_ h.radius_pos.le
    linarith [h.tol_nonneg]

end Ample

/-- What the arcs have in common is one of four differences. -/
lemma lt_size_mul {shift : ℝ} (hfirst : tol < (a.endAngle - a.startAngle) * a.radius)
    (hbefore : tol < (a.endAngle - (b.startAngle + shift)) * a.radius)
    (hafter : tol < (b.endAngle + shift - a.startAngle) * a.radius)
    (hsecond : tol < (b.endAngle - b.startAngle) * a.radius) :
    tol < (a.common b shift).size * a.radius := by
  rw [Run.size]
  simp only [common]
  rcases max_choice a.startAngle (b.startAngle + shift) with hlow | hlow <;>
    rcases min_choice a.endAngle (b.endAngle + shift) with hhigh | hhigh <;>
    rw [hlow, hhigh]
  · exact hfirst
  · exact hafter
  · exact hbefore
  · rwa [add_sub_add_right_eq_sub]

/-- **Where another shift brings the arcs close, they overlap.**  Only the gap of an arc that is
nearly the whole circle is that short, and the other arc is too long to fit into it. -/
lemma mem_runs_or_edge (h : Ample a b tol) {m : ℤ}
    (hkeeps : -tol ≤ (a.common b (m * (2 * pi))).size * a.radius) :
    a.common b (m * (2 * pi)) ∈ a.runs b tol ∨
      ∃ k : ℤ, tol < (a.common b (k * (2 * pi))).size * a.radius := by
  obtain ⟨n, hn, hlow, hhigh⟩ := exists_tried h.coaxial
  have hradius := h.radius_pos
  have htol := h.tol_nonneg
  have hturn := h.lt_turn
  have hlong : 2 * tol < (a.endAngle - a.startAngle) * a.radius := by
    rw [mul_comm _ a.radius]; exact h.long
  have hlong' : 2 * tol < (b.endAngle - b.startAngle) * a.radius := by
    rw [mul_comm _ a.radius, ← h.coaxial.radius_eq]; exact h.long'
  obtain ⟨hle, hle'⟩ := size_le a b (m * (2 * pi))
  obtain hm | hm | hm : m ≤ n - 2 ∨ (m = n - 1 ∨ m = n) ∨ n + 1 ≤ m := by omega
  · -- the second arc leaves the gap in front of the first
    have hmul : (m : ℝ) * (2 * pi) ≤ ((n - 2 : ℤ) : ℝ) * (2 * pi) :=
      mul_le_mul_of_nonneg_right (by exact_mod_cast hm) turn_pos.le
    push_cast at hmul
    refine .inr ⟨n - 1, lt_size_mul (by linarith) ?_ ?_ (by linarith)⟩
    · push_cast
      have hstep := mul_le_mul_of_nonneg_right (show a.endAngle - a.startAngle
        ≤ a.endAngle - (b.startAngle + (n - 1) * (2 * pi)) by linarith) hradius.le
      linarith
    · push_cast
      have hstep := mul_le_mul_of_nonneg_right (show (a.common b (m * (2 * pi))).size + 2 * pi
        ≤ b.endAngle + (n - 1) * (2 * pi) - a.startAngle by linarith) hradius.le
      linarith
  · exact .inl (mem_runs_of_tried hn hm hkeeps)
  · -- the first arc leaves the gap in front of the second
    have hmul : ((n + 1 : ℤ) : ℝ) * (2 * pi) ≤ m * (2 * pi) :=
      mul_le_mul_of_nonneg_right (by exact_mod_cast hm) turn_pos.le
    push_cast at hmul
    refine .inr ⟨n, lt_size_mul (by linarith) ?_ ?_ (by linarith)⟩
    · have hstep := mul_le_mul_of_nonneg_right (show (a.common b (m * (2 * pi))).size + 2 * pi
        ≤ a.endAngle - (b.startAngle + n * (2 * pi)) by linarith) hradius.le
      linarith
    · have hstep := mul_le_mul_of_nonneg_right (show b.endAngle - b.startAngle
        ≤ b.endAngle + n * (2 * pi) - a.startAngle by linarith) hradius.le
      linarith

lemma mem_edges_of_lt (h : Ample a b tol) {m : ℤ}
    (hlt : tol < (a.common b (m * (2 * pi))).size * a.radius) :
    a.common b (m * (2 * pi)) ∈ a.edges b tol := by
  obtain ⟨n, hn, hlow, hhigh⟩ := exists_tried h.coaxial
  have hpos := pos_of_mul_pos_left (h.tol_nonneg.trans_lt hlt) h.radius_pos.le
  have hm := tried_of_nonneg h.coaxial hlow hhigh hpos.le
  exact mem_edges.mpr ⟨mem_runs_of_tried hn hm (by linarith [h.tol_nonneg]), hlt⟩

/-! ## What is reported -/

/-- The greatest run that is kept is a longest shared run. -/
lemma longestRun_of_greatest (h : Ample a b tol) {run : Run ℝ}
    (hbest : Run.greatest? (a.edges b tol) = some run) :
    a.LongestRun b run.low run.high ∧ tol < a.radius * (run.high - run.low) := by
  obtain ⟨hmem, hmax⟩ := Run.greatest?_spec hbest
  obtain ⟨hrun, hlt⟩ := mem_edges.mp hmem
  obtain ⟨hcommon, ⟨n, hn⟩, -⟩ := mem_runs hrun
  have hpos := pos_of_mul_pos_left (h.tol_nonneg.trans_lt hlt) h.radius_pos.le
  rw [hn] at hcommon
  refine ⟨⟨?_, fun low' high' hshares => ?_⟩, by rwa [mul_comm]⟩
  · rw [hcommon] at hpos ⊢
    exact sharesRun_common h.coaxial hpos.le
  · obtain ⟨m, hm⟩ := size_of_sharesRun h.coaxial hshares
    refine hm.trans ?_
    rcases le_or_gt ((a.common b (m * (2 * pi))).size * a.radius) tol with hshort | hlong
    · exact le_of_mul_le_mul_right (hshort.trans hlt.le) h.radius_pos
    · exact Run.size_le_of_rank_le (hmax _ (mem_edges_of_lt h hlong))

/-- **Arcs that share a run.**  The ends of a longest shared run are reported. -/
lemma overlap_of_sharesRun (h : Ample a b tol) (hshares : a.SharesRun b low high)
    (hlt : tol < a.radius * (high - low)) :
    ∃ p q first last, a.overlap b tol = .ok (.run p q) ∧ a.LongestRun b first last ∧
      p.dist (a.center.around a.radius first) ≤ tol ∧
      q.dist (a.center.around a.radius last) ≤ tol := by
  obtain ⟨n, hn⟩ := size_of_sharesRun h.coaxial hshares
  have hedge : a.common b (n * (2 * pi)) ∈ a.edges b tol := by
    refine mem_edges_of_lt h (hlt.trans_le ?_)
    rw [mul_comm]
    exact mul_le_mul_of_nonneg_right hn h.radius_pos.le
  obtain ⟨run, hbest⟩ := Option.ne_none_iff_exists'.mp
    (mt Run.greatest?_eq_none.mp (List.ne_nil_of_mem hedge))
  obtain ⟨p, q, hpq, hp, hq⟩ := overlap_of_edge h.coaxial h.tol_nonneg hbest
  exact ⟨p, q, _, _, hpq, (longestRun_of_greatest h hbest).1, hp, hq⟩

/-- Without a shared run longer than the tolerance no run is an edge. -/
lemma edges_eq_nil (h : Ample a b tol)
    (hnone : ∀ low high, a.SharesRun b low high → a.radius * (high - low) ≤ tol) :
    a.edges b tol = [] := by
  rw [← Run.greatest?_eq_none, Option.eq_none_iff_forall_ne_some]
  intro run hbest
  obtain ⟨hlongest, hlt⟩ := longestRun_of_greatest h hbest
  exact absurd hlt (not_lt.mpr (hnone _ _ hlongest.shared))

lemma runs_eq_nil_iff (h : Ample a b tol)
    (hnone : ∀ low high, a.SharesRun b low high → a.radius * (high - low) ≤ tol) :
    a.runs b tol = [] ↔ ¬ a.ComesWithin b tol := by
  rw [comesWithin_iff h.coaxial h.tol_nonneg, not_exists]
  constructor
  · intro hruns m hkeeps
    rcases mem_runs_or_edge h hkeeps with hmem | ⟨k, hk⟩
    · rw [hruns] at hmem
      cases hmem
    · have hedge := mem_edges_of_lt h hk
      rw [edges_eq_nil h hnone] at hedge
      cases hedge
  · intro hfar
    refine List.eq_nil_iff_forall_not_mem.mpr fun r hr => ?_
    obtain ⟨hcommon, ⟨n, hn⟩, hkeeps⟩ := mem_runs hr
    rw [hcommon, hn] at hkeeps
    exact hfar n hkeeps

/-- A point near the middle of a short run is near an end of each arc. -/
lemma near_ends_of_short (h : Ample a b tol) {r : Run ℝ} (hr : r ∈ a.runs b tol)
    (hshort : r.size * a.radius ≤ tol) {p : Point ℝ} (hp : p.dist (a.contact r) ≤ tol) :
    (p.dist a.start ≤ 2 * tol ∨ p.dist a.stop ≤ 2 * tol) ∧
      (p.dist b.start ≤ 2 * tol ∨ p.dist b.stop ≤ 2 * tol) := by
  obtain ⟨hcommon, ⟨n, hn⟩, hkeeps⟩ := mem_runs hr
  obtain ⟨hlow, hhigh⟩ := contact_near h.radius_pos (abs_le.mpr ⟨hkeeps, hshort⟩)
  obtain ⟨hlt, hlt'⟩ := h.short_of_le hshort
  have hnear : ∀ {q : Point ℝ}, (a.contact r).dist q ≤ tol / 2 → p.dist q ≤ 2 * tol := by
    intro q hq
    have := Point.dist_triangle p (a.contact r) q
    linarith [h.tol_nonneg]
  have hturns : ∀ θ, a.center.around a.radius (θ + r.shift) = b.center.around b.radius θ := by
    intro θ
    rw [hn, Point.around_add_turns, h.coaxial.around_eq]
  rw [hcommon] at hlt hlt'
  obtain ⟨hlow', hhigh'⟩ | ⟨hlow', hhigh'⟩ := ends_of_short hlt hlt' <;>
    rw [← hcommon] at hlow' hhigh' <;> rw [hlow'] at hlow <;> rw [hhigh'] at hhigh
  · rw [← h.coaxial.regular.stop_eq] at hhigh
    rw [hturns, ← h.coaxial.regular'.start_eq] at hlow
    exact ⟨.inr (hnear hhigh), .inl (hnear hlow)⟩
  · rw [← h.coaxial.regular.start_eq] at hlow
    rw [hturns, ← h.coaxial.regular'.stop_eq] at hhigh
    exact ⟨.inl (hnear hlow), .inr (hnear hhigh)⟩

/-- **Arcs that share no run.**  One or two points near ends of both arcs are reported if the arcs
come close, and none otherwise. -/
lemma overlap_of_no_run (h : Ample a b tol)
    (hnone : ∀ low high, a.SharesRun b low high → a.radius * (high - low) ≤ tol) :
    ∃ points, a.overlap b tol = .ok (.crossing points) ∧ points.length ≤ 2 ∧
      (points = [] ↔ ¬ a.ComesWithin b tol) ∧
      ∀ p ∈ points, (p.dist a.start ≤ 2 * tol ∨ p.dist a.stop ≤ 2 * tol) ∧
        (p.dist b.start ≤ 2 * tol ∨ p.dist b.stop ≤ 2 * tol) := by
  have hedges := edges_eq_nil h hnone
  obtain ⟨points, hoverlap, hnear⟩ := overlap_of_edges_eq_nil h.coaxial h.tol_nonneg hedges
  have hperm : ((Curve.arc a).orderAlong (merged tol points)).Perm (merged tol points) :=
    ordered_perm _ _
  have hlength : points.length = (a.runs b tol).length := by
    rw [hnear.length_eq, List.length_map]
  refine ⟨_, hoverlap, ?_, ?_, ?_⟩
  · calc ((Curve.arc a).orderAlong (merged tol points)).length
        = (merged tol points).length := hperm.length_eq
      _ ≤ points.length := (merged_sublist tol points).length_le
      _ ≤ 2 := hlength ▸ length_runs_le a b tol
  · have hordered : (Curve.arc a).orderAlong (merged tol points) = [] ↔ merged tol points = [] := by
      rw [← List.length_eq_zero_iff, hperm.length_eq, List.length_eq_zero_iff]
    have hruns : points = [] ↔ a.runs b tol = [] := by
      rw [← List.length_eq_zero_iff, hlength, List.length_eq_zero_iff]
    rw [hordered, merged_eq_nil_iff, hruns, runs_eq_nil_iff h hnone]
  · intro p hp
    have hmem := (merged_sublist tol points).subset (hperm.mem_iff.mp hp)
    obtain ⟨m, hm, hdist⟩ := exists_of_forall₂ hnear hmem
    obtain ⟨r, hr, rfl⟩ := List.mem_map.mp hm
    refine near_ends_of_short h hr (not_lt.mp fun hlong => ?_) hdist
    have hedge := mem_edges.mpr ⟨hr, hlong⟩
    rw [hedges] at hedge
    cases hedge

/-! ## Arcs as segments -/

lemma intersect_eq_overlap (h : a.Coaxial b) (tol : ℝ) {radiusTol : ℝ} (hpos : 0 < radiusTol) :
    (Segment.curve (.arc a)).intersect (.curve (.arc b)) tol radiusTol = a.overlap b tol := by
  have hsame : (Curve.arc a).support.same (Curve.arc b).support radiusTol = true := by
    simp [Curve.support, Curve.center, Curve.radius, Circle.same, Point.agrees, h.center_eq,
      h.radius_eq, hpos, hpos.le]
  exact if_pos hsame

/-- An arc whose points all lie on another is a run that the two share. -/
lemma SharesRun.of_subset (h : a.Coaxial b) (hsub : b.trace ⊆ a.trace) :
    a.SharesRun b b.startAngle b.endAngle := by
  refine ⟨h.regular'.start_le_end, fun θ hlow hhigh => ?_⟩
  have hmem : b.center.around b.radius θ ∈ b.trace := ⟨θ, hlow, hhigh, rfl⟩
  exact h.around_eq θ ▸ ⟨hsub hmem, hmem⟩

/-- No longest run is another part of the circle then. -/
lemma LongestRun.of_subset (h : a.Coaxial b) (hsub : b.trace ⊆ a.trace)
    (hlongest : a.LongestRun b low high) :
    a.center.around a.radius low = b.start ∧ a.center.around a.radius high = b.stop := by
  obtain ⟨n, hlow, hhigh⟩ := h.regular'.exists_turn hlongest.shared.low_le_high
    fun θ h1 h2 => h.around_eq θ ▸ (hlongest.shared.on_both θ h1 h2).2
  have hlong := hlongest.longest _ _ (.of_subset h hsub)
  have hstart : b.startAngle = low + n * (2 * pi) := by linarith
  have hend : b.endAngle = high + n * (2 * pi) := by linarith
  constructor
  · rw [h.regular'.start_eq, hstart, Point.around_add_turns, h.around_eq]
  · rw [h.regular'.stop_eq, hend, Point.around_add_turns, h.around_eq]

/-- **Two arcs on one circle.**  If they share a run longer than the tolerance, the ends of a longest
one are reported as an edge; these are the ends of the second arc if all of it lies on the first.
If they share no such run, the points where they come close are reported, each near an end of both
arcs, and nothing if they stay apart. -/
theorem intersect_shared (h : Ample a b coincidentTol) :
    ((∃ low high, a.SharesRun b low high ∧ coincidentTol < a.radius * (high - low)) →
      ∃ p q low high, (Segment.curve (.arc a)).intersect (.curve (.arc b)) coincidentTol radiusTol
          = .ok (.run p q) ∧ a.LongestRun b low high ∧
        p.dist (a.center.around a.radius low) ≤ coincidentTol ∧
        q.dist (a.center.around a.radius high) ≤ coincidentTol) ∧
    ((∀ low high, a.SharesRun b low high → a.radius * (high - low) ≤ coincidentTol) →
      ∃ points, (Segment.curve (.arc a)).intersect (.curve (.arc b)) coincidentTol radiusTol
          = .ok (.crossing points) ∧ points.length ≤ 2 ∧
        (points = [] ↔ ¬ a.ComesWithin b coincidentTol) ∧
        ∀ p ∈ points,
          (p.dist a.start ≤ 2 * coincidentTol ∨ p.dist a.stop ≤ 2 * coincidentTol) ∧
          (p.dist b.start ≤ 2 * coincidentTol ∨ p.dist b.stop ≤ 2 * coincidentTol)) ∧
    (b.trace ⊆ a.trace →
      ∃ p q, (Segment.curve (.arc a)).intersect (.curve (.arc b)) coincidentTol radiusTol
          = .ok (.run p q) ∧ p.dist b.start ≤ coincidentTol ∧ q.dist b.stop ≤ coincidentTol) := by
  rw [intersect_eq_overlap h.coaxial coincidentTol radiusTol_pos]
  refine ⟨?_, overlap_of_no_run h, fun hsub => ?_⟩
  · rintro ⟨low, high, hshares, hlt⟩
    exact overlap_of_sharesRun h hshares hlt
  · have hlong : coincidentTol < a.radius * (b.endAngle - b.startAngle) := by
      have hlong' := h.long'
      rw [h.coaxial.radius_eq, sweep] at hlong'
      linarith [h.tol_nonneg]
    obtain ⟨p, q, low, high, hpq, hlongest, hp, hq⟩ :=
      overlap_of_sharesRun h (.of_subset h.coaxial hsub) hlong
    obtain ⟨hstart, hstop⟩ := hlongest.of_subset h.coaxial hsub
    exact ⟨p, q, hpq, hstart ▸ hp, hstop ▸ hq⟩

/-! ## Two arcs that meet at both ends -/

/-- The arc between two angles of the unit circle. -/
noncomputable def ofAngles (first last : ℝ) : Arc ℝ :=
  ⟨⟨0, 0, 0⟩, 1, .around ⟨0, 0, 0⟩ 1 first, .around ⟨0, 0, 0⟩ 1 last, first, last, false⟩

lemma regular_ofAngles {first last : ℝ} (hlow : -pi ≤ first) (hhigh : first ≤ pi)
    (hle : first ≤ last) (hlt : last < first + 2 * pi) : (ofAngles first last).Regular :=
  ⟨by norm_num [ofAngles], hlow, hhigh, hle, hlt, rfl, rfl⟩

lemma ample_ofAngles {first last first' last' : ℝ} (h : (ofAngles first last).Regular)
    (h' : (ofAngles first' last').Regular) (hlong : 1 ≤ last - first) (hlong' : 1 ≤ last' - first') :
    (ofAngles first last).Ample (ofAngles first' last') coincidentTol := by
  refine ⟨⟨h, h', rfl, rfl⟩, coincidentTol_pos.le, ?_, ?_⟩
  · rw [coincidentTol_eq]
    simp only [ofAngles, sweep]
    linarith
  · rw [coincidentTol_eq]
    simp only [ofAngles, sweep]
    linarith

/-- Three quarters of a circle from angle zero, and three quarters from half a turn, share a quarter
at both ends.  One of the two is reported. -/
theorem intersect_shared_three_quarters :
    (ofAngles 0 (3 * pi / 2)).Ample (ofAngles pi (5 * pi / 2)) coincidentTol ∧
      (ofAngles 0 (3 * pi / 2)).SharesRun (ofAngles pi (5 * pi / 2)) pi (3 * pi / 2) ∧
      (ofAngles 0 (3 * pi / 2)).SharesRun (ofAngles pi (5 * pi / 2)) 0 (pi / 2) ∧
      ∃ p q low high, (Segment.curve (.arc (ofAngles 0 (3 * pi / 2)))).intersect
          (.curve (.arc (ofAngles pi (5 * pi / 2)))) coincidentTol radiusTol = .ok (.run p q) ∧
        (ofAngles 0 (3 * pi / 2)).LongestRun (ofAngles pi (5 * pi / 2)) low high := by
  have hpi := Real.pi_gt_three
  have h : (ofAngles 0 (3 * pi / 2)).Regular :=
    regular_ofAngles (by linarith) (by linarith) (by linarith) (by linarith)
  have h' : (ofAngles pi (5 * pi / 2)).Regular :=
    regular_ofAngles (by linarith) le_rfl (by linarith) (by linarith)
  have hample := ample_ofAngles h h' (by linarith) (by linarith)
  have hlast : (ofAngles 0 (3 * pi / 2)).SharesRun (ofAngles pi (5 * pi / 2)) pi (3 * pi / 2) :=
    ⟨by linarith, fun θ hlow hhigh => ⟨⟨θ, by simp only [ofAngles]; linarith, hhigh, rfl⟩,
      ⟨θ, hlow, by simp only [ofAngles]; linarith, rfl⟩⟩⟩
  have hfirst : (ofAngles 0 (3 * pi / 2)).SharesRun (ofAngles pi (5 * pi / 2)) 0 (pi / 2) := by
    refine ⟨by linarith, fun θ hlow hhigh => ⟨⟨θ, hlow, by simp only [ofAngles]; linarith, rfl⟩,
      ⟨θ + (1 : ℤ) * (2 * pi), ?_, ?_, (Point.around_add_turns _ _ _ _).symm⟩⟩⟩
    · simp only [ofAngles]; push_cast; linarith
    · simp only [ofAngles]; push_cast; linarith
  obtain ⟨p, q, low, high, hpq, hlongest, -, -⟩ := (intersect_shared hample).1
    ⟨_, _, hlast, by rw [coincidentTol_eq]; simp only [ofAngles]; linarith⟩
  exact ⟨hample, hlast, hfirst, p, q, low, high, hpq, hlongest⟩

end Arc

end Contour
