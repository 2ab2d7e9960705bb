import Contour.Proofs.Meeting
import Contour.Proofs.Overlap

/-!
# Segments in either order

What happens to an intersection with a curve when its two segments change places.

* `Intersection.swap` — a result seen from the other segment.
* `Circle.crossings_perm` — both orders find the same two points on crossing circles.
* `Curve.intersectArcs_mirror`, `Curve.intersectSame_mirror` — curves on different circles, and
  on one.
* `Segment.intersect_exchange` — the law for every two segments of which one is a curve.
-/

namespace Contour

/-- A result seen from the other segment. -/
def Intersection.swap (r : Intersection ℝ) : Intersection ℝ := ⟨r.points, r.flag.swap⟩

/-! ## Crossing circles -/

namespace Circle

variable {a b : Circle ℝ} {radiusTol : ℝ}

lemma crossings_perm (ha : a.Proper) (hb : b.Proper)
    (hlow : |a.radius - b.radius| < a.center.dist b.center)
    (hhigh : a.center.dist b.center < a.radius + b.radius) :
    ∃ ps qs, a.crossings b = .ok ps ∧ b.crossings a = .ok qs ∧ ps.Perm qs := by
  obtain ⟨p, q, hab, -, hmem⟩ := crossings_spec ha hb hlow hhigh
  rw [abs_sub_comm, Point.dist_comm] at hlow
  rw [add_comm, Point.dist_comm] at hhigh
  obtain ⟨p', q', hba, -, hmem'⟩ := crossings_spec hb ha hlow hhigh
  refine ⟨_, _, hab, hba, ?_⟩
  rw [Set.inter_comm, hmem, Set.pair_eq_pair_iff] at hmem'
  rcases hmem' with ⟨rfl, rfl⟩ | ⟨rfl, rfl⟩
  · exact List.Perm.refl _
  · exact List.Perm.swap _ _ _

/-- The result for two circles in a position, given the result for crossing circles. -/
def resolve (position : Position) (crossing : Except (Fault ℝ) (Intersection ℝ)) :
    Except (Fault ℝ) (Intersection ℝ) :=
  match position with
  | .apart => .ok .miss
  | .related flag => .ok (.flagged flag)
  | .crossing => crossing

/-- **Positions mirror each other.**  If the results for crossing circles match, so do the results
in every position. -/
lemma resolve_mirror (htol : 0 < radiusTol) {ε : ℝ} (hε : 0 ≤ ε)
    {crossing crossing' : Except (Fault ℝ) (Intersection ℝ)}
    (hcross : |a.radius - b.radius| < a.center.dist b.center →
      a.center.dist b.center < a.radius + b.radius →
      ∃ r s, crossing = .ok r ∧ crossing' = .ok s ∧ r.swap.Matches ε s) :
    ∃ r s, resolve (a.position b radiusTol) crossing = .ok r ∧
      resolve (b.position a radiusTol) crossing' = .ok s ∧ r.swap.Matches ε s := by
  have hplaced := placed a b htol
  rw [position_swap a b htol]
  revert hplaced
  generalize a.position b radiusTol = position
  intro hplaced
  cases position with
  | apart => exact ⟨_, _, rfl, rfl, .refl hε _⟩
  | related flag => exact ⟨_, _, rfl, rfl, .refl hε _⟩
  | crossing =>
      cases hplaced with
      | crossing hlow hhigh => exact hcross hlow hhigh

lemma intersect_mirror (ha : a.Proper) (hb : b.Proper) (htol : 0 < radiusTol) {ε : ℝ}
    (hε : 0 ≤ ε) :
    ∃ r s, a.intersect b radiusTol = .ok r ∧ b.intersect a radiusTol = .ok s ∧
      r.swap.Matches ε s := by
  refine resolve_mirror htol hε fun hlow hhigh => ?_
  obtain ⟨ps, qs, hab, hba, hperm⟩ := crossings_perm ha hb hlow hhigh
  exact ⟨.crossing ps, .crossing qs, by rw [hab]; rfl, by rw [hba]; rfl,
    .of_matched rfl (.of_perm hε hperm)⟩

end Circle

/-! ## Curves -/

namespace Curve

variable {c d : Curve ℝ} {tol radiusTol : ℝ}

/-- **Curves on different circles give matching results in both orders**, and so do curves on one
circle if the runs they share do. -/
lemma intersectArcs_mirror (hc : c.support.Proper) (hd : d.support.Proper)
    (htol : 0 < radiusTol) {ε : ℝ} (hε : 0 ≤ ε)
    (hsame : c.support.same d.support radiusTol = true →
      ∃ r s, c.intersectSame d tol = .ok r ∧ d.intersectSame c tol = .ok s ∧ r.swap.Matches ε s) :
    ∃ r s, c.intersectArcs d tol radiusTol = .ok r ∧ d.intersectArcs c tol radiusTol = .ok s ∧
      r.swap.Matches ε s := by
  unfold intersectArcs
  rw [Circle.same_comm c.support d.support]
  by_cases hone : c.support.same d.support radiusTol = true
  · simp only [hone, if_true]
    exact hsame hone
  · simp only [hone]
    refine Circle.resolve_mirror htol hε fun hlow hhigh => ?_
    obtain ⟨ps, qs, hab, hba, hperm⟩ := Circle.crossings_perm hc hd hlow hhigh
    have hkeep : qs.filter (fun p => d.reaches tol p && c.reaches tol p)
        = qs.filter (fun p => c.reaches tol p && d.reaches tol p) :=
      List.filter_congr fun p _ => Bool.and_comm _ _
    rw [hab, hba]
    simp only [bind, Except.bind, pure, Except.pure, filterM_ok (bothCover_eq hc hd),
      filterM_ok (bothCover_eq hd hc), hkeep]
    refine ⟨_, _, rfl, rfl, .of_matched rfl (.of_perm hε ?_)⟩
    exact (ordered_perm _ _).trans ((hperm.filter _).trans (ordered_perm _ _).symm)

end Curve

/-- A line and a curve always have a result, and it does not mention an order. -/
lemma Line.intersectCurve_ok {l : Line ℝ} {c : Curve ℝ} {tol : ℝ} (hl : l.Proper tol)
    (htol : 0 ≤ tol) (hc : c.support.Proper) (slack radiusTol : ℝ) :
    ∃ r, l.intersectCurve c slack radiusTol = .ok r ∧ r.swap = r := by
  rw [intersectCurve_eq hl htol]
  split_ifs
  · exact ⟨_, rfl, rfl⟩
  · exact ⟨_, rfl, rfl⟩
  · obtain ⟨selected, hselected, -⟩ := Curve.select_perm hc
      (l.pointsAt [l.highRoot c.center c.radius, l.lowRoot c.center c.radius]) slack
    rw [hselected]
    exact ⟨_, rfl, rfl⟩

namespace Segment

/-- The ends of an arc lie at its radius and more than four tolerances apart. -/
def Exact : Segment ℝ → Prop
  | curve (.arc a) =>
      a.start.dist a.center = a.radius ∧ a.stop.dist a.center = a.radius ∧
        4 * coincidentTol < a.start.dist a.stop
  | _ => True

/-- The circles under two curves are equal, or the kernel tells them apart. -/
def Distinguished : Segment ℝ → Segment ℝ → Prop
  | curve c, curve d => c.support = d.support ∨ c.support.same d.support radiusTol = false
  | _, _ => True

end Segment

/-- **Curves on one circle give matching results in both orders.** -/
lemma Curve.intersectSame_mirror {c d : Curve ℝ} (hc : Segment.Built (.curve c))
    (hd : Segment.Built (.curve d)) (hcExact : (Segment.curve c).Exact)
    (hdExact : (Segment.curve d).Exact) (hsupport : c.support = d.support) :
    ∃ r s, c.intersectSame d coincidentTol = .ok r ∧ d.intersectSame c coincidentTol = .ok s ∧
      r.swap.Matches (2 * coincidentTol) s := by
  have hε : (0 : ℝ) ≤ 2 * coincidentTol := mul_nonneg zero_le_two coincidentTol_pos.le
  cases c with
  | circle k =>
      cases d with
      | circle k' =>
          have hk : k = k' := hsupport
          subst hk
          exact ⟨_, _, rfl, rfl, .refl hε _⟩
      | arc a => exact ⟨_, _, rfl, rfl, .refl hε _⟩
  | arc a =>
      cases d with
      | circle k => exact ⟨_, _, rfl, rfl, .refl hε _⟩
      | arc a' =>
          obtain ⟨hstart, hstop, hapart⟩ := hcExact
          obtain ⟨hstart', hstop', hapart'⟩ := hdExact
          obtain ⟨hcenter, hradius⟩ := (Circle.mk.injEq _ _ _ _).mp hsupport
          obtain ⟨r, s, hab, hba, hflag, hmatch⟩ := Arc.overlap_swap
            ⟨coincidentTol_pos.le, hc.arc.regular hstart hstop, hd.arc.regular hstart' hstop',
              hcenter.symm, hradius.symm, hapart, hapart'⟩
          exact ⟨r, s, hab, hba, .of_matched (hmatch.flag_eq.trans hflag.symm) hmatch.points⟩

/-- **Curves give matching results in both orders.** -/
lemma Curve.intersect_mirror {c d : Curve ℝ} (hc : Segment.Built (.curve c))
    (hd : Segment.Built (.curve d)) (hcExact : (Segment.curve c).Exact)
    (hdExact : (Segment.curve d).Exact) (hdist : (Segment.curve c).Distinguished (.curve d)) :
    ∃ r s, c.intersect d coincidentTol radiusTol = .ok r ∧
      d.intersect c coincidentTol radiusTol = .ok s ∧ r.swap.Matches (2 * coincidentTol) s := by
  have hε : (0 : ℝ) ≤ 2 * coincidentTol := mul_nonneg zero_le_two coincidentTol_pos.le
  have harcs : ∃ r s, c.intersectArcs d coincidentTol radiusTol = .ok r ∧
      d.intersectArcs c coincidentTol radiusTol = .ok s ∧ r.swap.Matches (2 * coincidentTol) s := by
    refine intersectArcs_mirror hc.support hd.support radiusTol_pos hε fun hsame => ?_
    refine intersectSame_mirror hc hd hcExact hdExact (hdist.resolve_right ?_)
    rw [hsame]
    decide
  cases c with
  | circle k =>
      cases d with
      | circle k' => exact Circle.intersect_mirror hc.support hd.support radiusTol_pos hε
      | arc a => exact harcs
  | arc a =>
      cases d with
      | circle k => exact harcs
      | arc a' => exact harcs

/-- **Segments in either order.**  For every two segments of which one is a curve, both orders have
a result, the flags mirror each other, and the points match one to one within two tolerances.  If
one of the segments is a line, the results are equal. -/
theorem Segment.intersect_exchange {a b : Segment ℝ} (ha : a.Built) (hb : b.Built)
    (hcurve : ¬ (a.isLine = true ∧ b.isLine = true)) (haExact : a.Exact) (hbExact : b.Exact)
    (hdist : a.Distinguished b) :
    ∃ r s, a.intersect b coincidentTol radiusTol = .ok r ∧
      b.intersect a coincidentTol radiusTol = .ok s ∧
      r.swap.Matches (2 * coincidentTol) s ∧ (a.isLine = true ∨ b.isLine = true → s = r) := by
  have hε : (0 : ℝ) ≤ 2 * coincidentTol := mul_nonneg zero_le_two coincidentTol_pos.le
  have hmixed : ∀ {l : Line ℝ} {c : Curve ℝ}, Built (.line l) → Built (.curve c) →
      ∃ r, l.intersectCurve c coincidentTol radiusTol = .ok r ∧
        r.swap.Matches (2 * coincidentTol) r := by
    intro l c hl hc
    obtain ⟨r, hr, hswap⟩ := Line.intersectCurve_ok hl.line coincidentTol_pos.le hc.support
      coincidentTol radiusTol
    exact ⟨r, hr, hswap.symm ▸ .refl hε r⟩
  cases a with
  | line l =>
      cases b with
      | line l' => exact absurd ⟨rfl, rfl⟩ hcurve
      | curve c =>
          obtain ⟨r, hr, hmatch⟩ := hmixed ha hb
          exact ⟨r, r, hr, hr, hmatch, fun _ => rfl⟩
  | curve c =>
      cases b with
      | line l =>
          obtain ⟨r, hr, hmatch⟩ := hmixed hb ha
          exact ⟨r, r, hr, hr, hmatch, fun _ => rfl⟩
      | curve d =>
          obtain ⟨r, s, hab, hba, hmatch⟩ := Curve.intersect_mirror ha hb haExact hbExact hdist
          exact ⟨r, s, hab, hba, hmatch, by simp [isLine]⟩

/-! ## Two arcs about the origin -/

/-- A quarter and a half of the circle of radius five, from one point. -/
theorem Segment.intersect_exchange_quarter_half :
    (curve (.arc (.aboutOrigin ⟨5, 0, 0⟩ ⟨0, 5, 0⟩))).Built ∧
      (curve (.arc (.aboutOrigin ⟨5, 0, 0⟩ ⟨-5, 0, 0⟩))).Built ∧
      (curve (.arc (.aboutOrigin ⟨5, 0, 0⟩ ⟨0, 5, 0⟩))).Exact ∧
      (curve (.arc (.aboutOrigin ⟨5, 0, 0⟩ ⟨-5, 0, 0⟩))).Exact ∧
      (curve (.arc (.aboutOrigin ⟨5, 0, 0⟩ ⟨0, 5, 0⟩))).Distinguished
        (curve (.arc (.aboutOrigin ⟨5, 0, 0⟩ ⟨-5, 0, 0⟩))) ∧
      ∃ r s, (curve (.arc (.aboutOrigin ⟨5, 0, 0⟩ ⟨0, 5, 0⟩))).intersect
          (curve (.arc (.aboutOrigin ⟨5, 0, 0⟩ ⟨-5, 0, 0⟩))) coincidentTol radiusTol = .ok r ∧
        (curve (.arc (.aboutOrigin ⟨5, 0, 0⟩ ⟨-5, 0, 0⟩))).intersect
          (curve (.arc (.aboutOrigin ⟨5, 0, 0⟩ ⟨0, 5, 0⟩))) coincidentTol radiusTol = .ok s ∧
        r.swap.Matches (2 * coincidentTol) s := by
  have hdist : ∀ {x y : ℝ}, x ^ 2 + y ^ 2 = 25 → (⟨x, y, 0⟩ : Point ℝ).dist ⟨0, 0, 0⟩ = 5 := by
    intro x y h
    rw [Point.dist_eq_iff (by norm_num)]
    linarith
  have hquarter : (curve (.arc (.aboutOrigin ⟨5, 0, 0⟩ ⟨0, 5, 0⟩))).Built := by
    refine .ofCurve (Curve.ofEnds_of_apart radiusTol_pos.le ⟨rfl, rfl, rfl⟩ ?_ ?_ ?_ false)
    · norm_num [Point.agrees, coincidentTol_eq]
    · norm_num [Point.agrees, coincidentTol_eq]
    · rw [hdist (by norm_num), hdist (by norm_num)]
  have hhalf : (curve (.arc (.aboutOrigin ⟨5, 0, 0⟩ ⟨-5, 0, 0⟩))).Built := by
    refine .ofCurve (Curve.ofEnds_of_apart radiusTol_pos.le ⟨rfl, rfl, rfl⟩ ?_ ?_ ?_ false)
    · norm_num [Point.agrees, coincidentTol_eq]
    · norm_num [Point.agrees, coincidentTol_eq]
    · rw [hdist (by norm_num), hdist (by norm_num)]
  have hquarterExact : (curve (.arc (.aboutOrigin ⟨5, 0, 0⟩ ⟨0, 5, 0⟩))).Exact := by
    refine ⟨rfl, (hdist (by norm_num)).trans (hdist (by norm_num)).symm, ?_⟩
    rw [Point.dist_eq_sqrt, Real.lt_sqrt (by rw [coincidentTol_eq]; norm_num), coincidentTol_eq]
    norm_num [Arc.aboutOrigin, Arc.start, Arc.stop]
  have hhalfExact : (curve (.arc (.aboutOrigin ⟨5, 0, 0⟩ ⟨-5, 0, 0⟩))).Exact := by
    refine ⟨rfl, (hdist (by norm_num)).trans (hdist (by norm_num)).symm, ?_⟩
    rw [Point.dist_eq_sqrt, Real.lt_sqrt (by rw [coincidentTol_eq]; norm_num), coincidentTol_eq]
    norm_num [Arc.aboutOrigin, Arc.start, Arc.stop]
  have hone : (curve (.arc (.aboutOrigin ⟨5, 0, 0⟩ ⟨0, 5, 0⟩))).Distinguished
      (curve (.arc (.aboutOrigin ⟨5, 0, 0⟩ ⟨-5, 0, 0⟩))) := .inl rfl
  obtain ⟨r, s, hab, hba, hmatch, -⟩ :=
    intersect_exchange hquarter hhalf (by simp [isLine]) hquarterExact hhalfExact hone
  exact ⟨hquarter, hhalf, hquarterExact, hhalfExact, hone, r, s, hab, hba, hmatch⟩

end Contour
