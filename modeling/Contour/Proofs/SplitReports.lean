import Contour.Proofs.CircleCuts
import Contour.Proofs.Reports

/-!
# Refusals of a split

A split checks its operand and its cuts and reports what it refuses.  Then it builds the pieces, and
for a circle that means to build two arcs, with all the checks of a new arc; but those are made
without the log.

* `Curve.EndsRefused`, `Curve.ofEnds_refused_or_ok` — when a new curve is refused.
* `Circle.HalvesRefused`, `Circle.cut_refused_iff` — when a circle that passed all checks of a split
  is refused nevertheless.
* `Operand.SplitReported`, `Operand.split_reported_iff` — a split reports its refusals exactly where
  that does not happen.
* `Circle.not_halvesRefused` — at the default tolerance it never does, for points of a real circle.
* `Operand.split_unreported` — a built circle for which it does, at a smaller tolerance.
-/

namespace Contour

/-! ## New curves -/

namespace Curve

variable {α : Type} [Add α] [Sub α] [Mul α] [LT α] [LE α] [DecidableLE α] [BEq α] [OfNat α 0]
  [Elementary α]

/-- Points that do not make a curve: they are not in the plane, or one of them is at the center, or
they are apart and at different distances from it. -/
def EndsRefused (center start stop : Point α) (tol radiusTol : α) : Prop :=
  ¬ (center.isPlanar ∧ start.isPlanar ∧ stop.isPlanar) ∨
    (center.agrees start tol ∨ center.agrees stop tol) ∨
    (¬ start.agrees stop tol ∧ radiusTol < Elementary.abs (stop.dist center - start.dist center))

variable {center start stop : Point α} {tol radiusTol : α}

/-- The order of the ends does not matter. -/
lemma endsRefused_comm [LawfulDifference α] :
    EndsRefused center start stop tol radiusTol ↔ EndsRefused center stop start tol radiusTol := by
  unfold EndsRefused
  rw [Point.agrees_comm start stop, LawfulDifference.abs_comm (stop.dist center),
    and_comm (a := start.isPlanar = true), or_comm (a := center.agrees start tol = true)]

/-- A new curve is refused, or built. -/
lemma ofEnds_refused_or_ok [Div α] [DecidableLT α] [OfNat α 2] (center start stop : Point α)
    (clockwise : Bool) (tol radiusTol : α) :
    (EndsRefused center start stop tol radiusTol ∧
        ∃ d, Curve.ofEnds center start stop clockwise tol radiusTol = .error (.diagnosed d)) ∨
      (¬ EndsRefused center start stop tol radiusTol ∧
        ∃ c, Curve.ofEnds center start stop clockwise tol radiusTol = .ok c) := by
  unfold ofEnds EndsRefused
  dsimp only
  split_ifs with hplanar hcenter hsame hradius
  · refine .inl ⟨.inl ?_, _, rfl⟩
    rintro ⟨hc, hs, he⟩
    simp [hc, hs, he] at hplanar
  · exact .inl ⟨.inr (.inl (Bool.or_eq_true_iff.mp hcenter)), _, rfl⟩
  · refine .inr ⟨?_, _, rfl⟩
    simp_all
  · exact .inl ⟨.inr (.inr ⟨hsame, hradius⟩), _, rfl⟩
  · refine .inr ⟨?_, _, rfl⟩
    simp_all

end Curve

/-! ## Pieces -/

section Pieces

variable {α : Type} {codes : List Code} [Add α] [Sub α] [Mul α] [Div α] [LT α] [DecidableLT α]
  [BEq α] [OfNat α 0] [Elementary α]

lemma Line.refusesOnly_cut (l : Line α) (points : List (Point α)) (tol : α) :
    RefusesOnly codes (l.cut points tol) :=
  (RefusesOnly.mapM (fun _ => refusesOnly_quotient _ _) points).bind fun _ => .ok _

omit [BEq α] [OfNat α 0] in
lemma Arc.refusesOnly_cut [OfNat α 2] (a : Arc α) (points : List (Point α)) (tol : α) :
    RefusesOnly codes (a.cut points tol) := by
  unfold cut
  dsimp only
  split
  · exact .ok _
  · exact (RefusesOnly.mapM (fun _ => Point.refusesOnly_polar _ _ _) _).bind fun _ => .ok _

end Pieces

namespace Circle

variable {α : Type} [Add α] [Sub α] [Mul α] [Div α] [LT α] [LE α] [DecidableLT α] [DecidableLE α]
  [BEq α] [OfNat α 0] [OfNat α 2] [OfScientific α] [Elementary α]

/-- Cuts far enough apart on a circle, between whose points no arc can be built. -/
def HalvesRefused (c : Circle α) (cuts : List (Point α)) (tol : α) : Prop :=
  ∃ low high p q,
    Scalar.ordered id (cuts.map fun m => Angle.unwrapAfter (m.angleXY c.center) 0) = [low, high] ∧
      ¬ c.radius * (high - low) ≤ tol ∧
      c.center.polar c.radius low = .ok p ∧ c.center.polar c.radius high = .ok q ∧
      Curve.EndsRefused c.center p q coincidentTol radiusTol

/-- Two arcs are built from two points, one each way round, or none. -/
lemma halves_refused_iff [LawfulDifference α] (c : Circle α) (p q : Point α) :
    (∃ d, (do
        let first ← Curve.ofEnds c.center p q false coincidentTol radiusTol
        let second ← Curve.ofEnds c.center q p false coincidentTol radiusTol
        return [first, second]) = Except.error (.diagnosed d)) ↔
      Curve.EndsRefused c.center p q coincidentTol radiusTol := by
  rcases Curve.ofEnds_refused_or_ok c.center p q false coincidentTol radiusTol with
    ⟨hrefused, d, hd⟩ | ⟨hends, first, hfirst⟩
  · rw [hd]
    exact iff_of_true ⟨d, rfl⟩ hrefused
  · rcases Curve.ofEnds_refused_or_ok c.center q p false coincidentTol radiusTol with
      ⟨hrefused, -⟩ | ⟨-, second, hsecond⟩
    · exact absurd (Curve.endsRefused_comm.mp hrefused) hends
    · rw [hfirst, hsecond]
      refine iff_of_false ?_ hends
      rintro ⟨d, ⟨⟩⟩

lemma cut_refused_iff [LawfulDifference α] (c : Circle α) (cuts : List (Point α)) (tol : α) :
    (∃ d, c.cut cuts tol = .error (.diagnosed d)) ↔ c.HalvesRefused cuts tol := by
  have hpolar : ∀ angle d, c.center.polar c.radius angle ≠ .error (.diagnosed d) :=
    fun angle => (Point.refusesOnly_polar c.center c.radius angle).not_diagnosed
  unfold cut HalvesRefused
  dsimp only
  generalize Scalar.ordered id (cuts.map fun m => Angle.unwrapAfter (m.angleXY c.center) 0) = angles
  rcases angles with _ | ⟨low, _ | ⟨high, _ | ⟨_, _⟩⟩⟩
  case cons.cons.nil =>
    dsimp only
    by_cases hshort : c.radius * (high - low) ≤ tol
    · simp [hshort]
    · rw [if_neg hshort]
      cases hlow : c.center.polar c.radius low with
      | error fault =>
          refine iff_of_false ?_ ?_
          · rintro ⟨d, ⟨⟩⟩
            exact hpolar low d hlow
          · rintro ⟨_, _, p, q, ⟨⟩, -, hp, -⟩
            rw [hlow] at hp
            cases hp
      | ok p =>
          cases hhigh : c.center.polar c.radius high with
          | error fault =>
              refine iff_of_false ?_ ?_
              · rintro ⟨d, ⟨⟩⟩
                exact hpolar high d hhigh
              · rintro ⟨_, _, p, q, ⟨⟩, -, -, hq, -⟩
                rw [hhigh] at hq
                cases hq
          | ok q =>
              refine (halves_refused_iff c p q).trans ⟨?_, ?_⟩
              · exact fun hrefused => ⟨low, high, p, q, rfl, hshort, hlow, hhigh, hrefused⟩
              · rintro ⟨_, _, p', q', ⟨⟩, -, hp, hq, hrefused⟩
                rw [hlow] at hp
                rw [hhigh] at hq
                cases hp
                cases hq
                exact hrefused
  all_goals simp

end Circle

section Splits

variable {α : Type} [Add α] [Sub α] [Mul α] [Div α] [LT α] [LE α] [DecidableLT α] [DecidableLE α]
  [BEq α] [OfNat α 0] [OfNat α 2] [OfScientific α] [Elementary α] [LawfulDifference α]

/-- Of the checked cuts of a segment only those of a circle are refused. -/
lemma Segment.cut_refused_iff (s : Segment α) (cuts : List (Point α)) (tol : α) :
    (∃ d, s.cut cuts tol = .error (.diagnosed d)) ↔
      ∃ c, s = .curve (.circle c) ∧ c.HalvesRefused cuts tol := by
  rcases s with l | a | c
  · refine iff_of_false ?_ (by rintro ⟨_, ⟨⟩, -⟩)
    have hquiet : RefusesOnly [] ((line l).cut cuts tol) :=
      (l.refusesOnly_cut cuts tol).bind fun _ => .ok _
    exact fun ⟨d, hd⟩ => hquiet.not_diagnosed d hd
  · refine iff_of_false ?_ (by rintro ⟨_, ⟨⟩, -⟩)
    have hquiet : RefusesOnly [] ((curve (.arc a)).cut cuts tol) :=
      (a.refusesOnly_cut cuts tol).bind fun _ => .ok _
    exact fun ⟨d, hd⟩ => hquiet.not_diagnosed d hd
  · have hcut : (∃ d, (curve (.circle c)).cut cuts tol = .error (.diagnosed d)) ↔
        ∃ d, c.cut cuts tol = .error (.diagnosed d) := by
      show (∃ d, (c.cut cuts tol >>= fun pieces => pure (pieces.map curve))
        = .error (.diagnosed d)) ↔ _
      cases c.cut cuts tol with
      | error fault =>
          refine exists_congr fun d => ⟨?_, ?_⟩ <;>
          · rintro ⟨⟩
            rfl
      | ok pieces => exact iff_of_false (by rintro ⟨_, ⟨⟩⟩) (by rintro ⟨_, ⟨⟩⟩)
    rw [hcut, c.cut_refused_iff]
    constructor
    · exact fun h => ⟨c, rfl, h⟩
    · rintro ⟨_, ⟨⟩, h⟩
      exact h

namespace Operand

variable [OfNat α 1] [Textual α]

/-- A split that reports its refusals: a refusal is one more entry of the log, and nothing is
reported if there are pieces. -/
structure SplitReported (o : Operand α) (points : List (Datum α)) (tol : α) (log : Log α) : Prop where
  refused : ∀ d, (o.split points tol log).1 = .error (.diagnosed d) →
    (o.split points tol log).2 = log.report d.diagnostic
  returned : ∀ pieces, (o.split points tol log).1 = .ok pieces → (o.split points tol log).2 = log

variable {o : Operand α} {points : List (Datum α)} {tol : α} {log : Log α}

omit [LawfulDifference α]

lemma SplitReported.of_after (result : Except (Fault α) (List (Segment α)))
    (h : o.split points tol log = (result, log.after result)) : o.SplitReported points tol log := by
  constructor
  · intro d hd
    rw [h] at hd ⊢
    cases hd
    rfl
  · intro pieces hpieces
    rw [h] at hpieces ⊢
    cases hpieces
    rfl

/-- A refusal of the operand is reported. -/
lemma split_of_no_segment {fault : Fault α} (h : o.require "segment" = .error fault) :
    o.SplitReported points tol log := by
  have hread := logged_eq (o.require "segment") log
  rw [h] at hread
  refine .of_after (.error fault) ?_
  unfold split
  rw [h, bind_of_error (congrArg Prod.fst hread), hread]
  cases fault <;> rfl

variable {s : Segment α} (hs : o.require "segment" = .ok s)

include hs

lemma split_of_segment :
    o.split points tol log = (unlogged (points.mapM Datum.toPoint) >>= fun cuts =>
      logged (s.checkCuts cuts tol) >>= fun _ => unlogged (s.cut cuts tol)) log := by
  have hread := logged_eq (o.require "segment") log
  rw [hs] at hread
  unfold split
  rw [hs, bind_of_ok (congrArg Prod.fst hread), hread]
  rfl

/-- A point that cannot be read is nothing to report. -/
lemma split_of_unread {fault : Fault α} (h : points.mapM Datum.toPoint = .error fault) :
    o.SplitReported points tol log := by
  have hquiet : RefusesOnly [] (points.mapM (Datum.toPoint (α := α))) :=
    .mapM (fun _ => Datum.refusesOnly_toPoint _) points
  have hsplit : o.split points tol log = (.error fault, log) := by
    rw [split_of_segment hs, h, bind_of_error rfl]
    rfl
  constructor
  · intro d hd
    rw [hsplit] at hd
    cases hd
    exact absurd h (hquiet.not_diagnosed d)
  · intro pieces hpieces
    rw [hsplit] at hpieces
    cases hpieces

variable {cuts : List (Point α)} (hcuts : points.mapM Datum.toPoint = .ok cuts)

include hcuts

/-- A refusal of the cuts is reported. -/
lemma split_of_unchecked {fault : Fault α} (h : s.checkCuts cuts tol = .error fault) :
    o.SplitReported points tol log := by
  have hcheck := logged_eq (s.checkCuts cuts tol) log
  rw [h] at hcheck
  refine .of_after (.error fault) ?_
  rw [split_of_segment hs, hcuts, bind_of_ok rfl, h]
  refine (bind_of_error (congrArg Prod.fst hcheck)).trans ?_
  cases fault <;> rfl

/-- What goes wrong while the pieces are built is not. -/
lemma split_of_checked (h : s.checkCuts cuts tol = .ok ()) :
    o.split points tol log = (s.cut cuts tol, log) := by
  rw [split_of_segment hs, hcuts, bind_of_ok rfl, h, bind_of_ok rfl]
  rfl

lemma splitReported_iff_of_checked (h : s.checkCuts cuts tol = .ok ()) :
    o.SplitReported points tol log ↔ ¬ ∃ d, s.cut cuts tol = .error (.diagnosed d) := by
  have hsplit : o.split points tol log = (s.cut cuts tol, log) := split_of_checked hs hcuts h
  constructor
  · rintro hreported ⟨d, hd⟩
    have hlog := hreported.refused d (by rw [hsplit, hd])
    rw [hsplit] at hlog
    have hlength := congrArg Log.size hlog
    simp [Log.size, Log.report] at hlength
  · intro hnone
    constructor
    · intro d hd
      rw [hsplit] at hd
      exact absurd ⟨d, hd⟩ hnone
    · intro pieces _
      rw [hsplit]

omit hs hcuts

/-- **Where a split reports its refusals**: for every operand and all points and tolerances, except
where the two arcs of a circle, at cuts that pass all checks of a split, are refused. -/
theorem split_reported_iff [LawfulDifference α] (o : Operand α) (points : List (Datum α)) (tol : α)
    (log : Log α) :
    o.SplitReported points tol log ↔
      ∀ c cuts, o.require "segment" = .ok (.curve (.circle c)) →
        points.mapM Datum.toPoint = .ok cuts →
        (Segment.curve (.circle c)).checkCuts cuts tol = .ok () → ¬ c.HalvesRefused cuts tol := by
  cases hs : o.require "segment" with
  | error fault => exact iff_of_true (split_of_no_segment hs) (by rintro _ _ ⟨⟩)
  | ok s =>
      cases hcuts : points.mapM Datum.toPoint with
      | error fault => exact iff_of_true (split_of_unread hs hcuts) (by rintro _ _ - ⟨⟩)
      | ok cuts =>
          cases hcheck : s.checkCuts cuts tol with
          | error fault =>
              refine iff_of_true (split_of_unchecked hs hcuts hcheck) ?_
              rintro c _ ⟨⟩ ⟨⟩ hok
              rw [hcheck] at hok
              cases hok
          | ok =>
              rw [splitReported_iff_of_checked hs hcuts hcheck, s.cut_refused_iff]
              constructor
              · rintro hnone c _ ⟨⟩ ⟨⟩ - hrefused
                exact hnone ⟨c, rfl, hrefused⟩
              · rintro hall ⟨c, rfl, hrefused⟩
                exact hall c cuts rfl rfl hcheck hrefused

end Operand

end Splits

/-! ## Real numbers -/

/-- Real numbers have no text. -/
instance : Textual ℝ where
  read? _ := none
  shortest _ := ""
  general _ := ""

/-- At the default tolerance the arcs between two points of a circle are never refused. -/
lemma Circle.not_halvesRefused {c : Circle ℝ} {p q : Point ℝ} (hc : c.Proper) (hp : p ∈ c.outline)
    (hq : q ∈ c.outline) : ¬ c.HalvesRefused [p, q] radiusTol := by
  rw [← cut_refused_iff]
  rintro ⟨d, hd⟩
  rcases le_total (c.bearing p) (c.bearing q) with hle | hle
  · obtain ⟨pieces, hcut, -⟩ := cutOnce_iff_of_le hc hp hq hle
    cases hcut.symm.trans hd
  · obtain ⟨pieces, hcut, -⟩ := cutOnce_iff_of_le hc hq hp hle
    cases hcut.symm.trans ((cut_swap c q p radiusTol).trans hd)

/-- Two points above the center split the circle of radius five, and nothing is reported. -/
theorem Operand.split_reported_iff_upper :
    (⟨3, 4, 0⟩ ∈ (Line.aboutOrigin 5).outline ∧ ⟨-3, 4, 0⟩ ∈ (Line.aboutOrigin 5).outline) ∧
      (segment (.curve (.circle (Line.aboutOrigin 5)))).SplitReported
        [.point ⟨3, 4, 0⟩, .point ⟨-3, 4, 0⟩] radiusTol .empty := by
  have hproper : (Line.aboutOrigin 5).Proper := ⟨rfl, by norm_num [Line.aboutOrigin]⟩
  have hp : (⟨3, 4, 0⟩ : Point ℝ) ∈ (Line.aboutOrigin 5).outline :=
    Circle.mem_outline_aboutOrigin (by norm_num) (by norm_num)
  have hq : (⟨-3, 4, 0⟩ : Point ℝ) ∈ (Line.aboutOrigin 5).outline :=
    Circle.mem_outline_aboutOrigin (by norm_num) (by norm_num)
  refine ⟨⟨hp, hq⟩, (split_reported_iff _ _ _ _).mpr ?_⟩
  rintro c cuts ⟨⟩ ⟨⟩ -
  exact Circle.not_halvesRefused hproper hp hq

/-! ### A circle that is hardly larger than the tolerance -/

namespace Operand

open Real (pi)

open Line (aboutOrigin)

/-- A circle that construction accepts, although a point of it need not be off its center. -/
noncomputable def tiny : Circle ℝ := aboutOrigin 1.2e-8

/-- A point of the tiny circle, and the one opposite. -/
noncomputable def near : Point ℝ := ⟨7.2e-9, 9.6e-9, 0⟩

noncomputable def opposite : Point ℝ := ⟨-7.2e-9, -9.6e-9, 0⟩

/-- The two points are at least a quarter of a turn apart. -/
lemma bearing_near_opposite :
    tiny.bearing near ≤ pi / 2 ∧ pi ≤ tiny.bearing opposite := by
  constructor
  · rw [Circle.bearing_of_nonneg (by norm_num [tiny, aboutOrigin, near])]
    refine (abs_le.mp (Complex.abs_arg_le_pi_div_two_iff.mpr ?_)).2
    norm_num [tiny, aboutOrigin, near]
  · rw [Circle.bearing_of_neg (by norm_num [tiny, aboutOrigin, opposite])]
    have hlow : -pi < opposite.angleXY tiny.center := Complex.neg_pi_lt_arg _
    linarith

lemma near_mem_outline : near ∈ tiny.outline :=
  Circle.mem_outline_aboutOrigin (by norm_num) (by norm_num)

lemma opposite_mem_outline : opposite ∈ tiny.outline :=
  Circle.mem_outline_aboutOrigin (by norm_num) (by norm_num)

/-- Between the two points no arc can be built, as they agree with the center. -/
lemma cut_tiny : (Segment.curve (.circle tiny)).cut [near, opposite] 1e-9
    = .error (.diagnosed (.ofComplaint (.degenerate "arc"))) := by
  obtain ⟨hfirst, hlast⟩ := bearing_near_opposite
  have hproper : tiny.Proper := ⟨rfl, by norm_num [tiny, aboutOrigin]⟩
  have hlong : ¬ tiny.measured near opposite ≤ 1e-9 := by
    have hgap : pi / 2 ≤ |tiny.bearing near - tiny.bearing opposite| := by
      rw [abs_sub_comm]
      exact (by linarith : pi / 2 ≤ _ - _).trans (le_abs_self _)
    have hmeasured : 1.2e-8 * (pi / 2) ≤ tiny.measured near opposite :=
      mul_le_mul_of_nonneg_left hgap (by norm_num)
    exact not_le.mpr (lt_of_lt_of_le (by linarith [Real.pi_gt_three]) hmeasured)
  have hagrees : tiny.center.agrees near coincidentTol = true := by
    simp only [Point.agrees, tiny, aboutOrigin, near, elementary_abs, coincidentTol_eq]
    norm_num [abs_of_pos]
  have hrefused : Curve.ofEnds tiny.center near opposite false coincidentTol radiusTol
      = refuse (.degenerate "arc") := by
    rw [Curve.ofEnds, if_neg (by simp [Point.isPlanar, tiny, aboutOrigin, near, opposite]),
      if_pos (by rw [hagrees, Bool.true_or])]
  have hcut := Circle.cut_eq_of_le hproper near_mem_outline opposite_mem_outline
    (by linarith [Real.pi_pos]) 1e-9
  rw [if_neg hlong, hrefused] at hcut
  show (tiny.cut [near, opposite] 1e-9 >>= fun pieces => pure (pieces.map Segment.curve)) = _
  rw [hcut]
  rfl

/-- **A split that is refused in silence.**  The circle is built with default tolerances, and both
points lie on it. -/
theorem split_unreported :
    Circle.ofRadius ⟨0, 0, 0⟩ 1.2e-8 coincidentTol = .ok tiny ∧
      near ∈ tiny.outline ∧ opposite ∈ tiny.outline ∧
      (segment (.curve (.circle tiny))).split [.point near, .point opposite] 1e-9 .empty
        = (.error (.diagnosed (.ofComplaint (.degenerate "arc"))), .empty) ∧
      ¬ SplitReported (segment (.curve (.circle tiny))) [.point near, .point opposite] 1e-9 .empty := by
  have hbuilt : Circle.ofRadius ⟨0, 0, 0⟩ 1.2e-8 coincidentTol = .ok tiny :=
    Circle.ofRadius_of_lt rfl (by rw [coincidentTol_eq]; norm_num)
  have hchecked : (Segment.curve (.circle tiny)).checkCuts [near, opposite] 1e-9 = .ok () := by
    refine Segment.checkCuts_ok (.inr rfl) fun m hm => ?_
    rcases List.mem_pair.mp hm with rfl | rfl
    · exact Circle.contains_of_mem_outline near_mem_outline (by norm_num)
    · exact Circle.contains_of_mem_outline opposite_mem_outline (by norm_num)
  have hsplit : (segment (.curve (.circle tiny))).split [.point near, .point opposite] 1e-9 .empty
      = (.error (.diagnosed (.ofComplaint (.degenerate "arc"))), .empty) := by
    rw [split_of_checked (s := .curve (.circle tiny)) rfl rfl hchecked, cut_tiny]
  refine ⟨hbuilt, near_mem_outline, opposite_mem_outline, hsplit, fun hreported => ?_⟩
  have hlog := hreported.refused _ (congrArg Prod.fst hsplit)
  rw [hsplit] at hlog
  cases hlog

end Operand

end Contour
