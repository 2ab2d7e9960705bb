import Contour.Double.Kernel
import Contour.Operand
import Contour.Proofs.Overlap

/-!
# What a result can look like

Flag and points of a result go together, and which flags there are depends on the kinds of the two
segments.  Both can be read off the exits of the solvers, without a law about numbers: what follows
holds in every arithmetic, of segments that nobody checked too.

* `satisfiesM_mapM`, `satisfiesM_filterM` — how many items a traversal returns.
* `Intersection.Fits`, `Segment.Permits` — what a flag says about the points, and the flags that two
  kinds of segments leave.
* `Intersection.Shaped` — both, together with the views of a result.
* `Curve.satisfiesM_intersectArcs`, `Segment.satisfiesM_intersect` — every exit of the solvers.
* `Operand.intersect_shaped` — the same for two operands.
-/

namespace Contour

/-! ## What a computation returns -/

/-- What is returned after a step that may return anything. -/
lemma satisfiesM_after {ε β γ : Type} {m : Except ε β} {f : β → Except ε γ} {P : γ → Prop}
    (h : ∀ x, SatisfiesM P (f x)) : SatisfiesM P (m >>= f) :=
  .bind .trivial fun x _ => h x

section Traversals

variable {ε β γ : Type}

lemma satisfiesM_mapM (f : β → Except ε γ) (items : List β) :
    SatisfiesM (fun ys => ys.length = items.length) (items.mapM f) :=
  SatisfiesM_Except_eq.mpr fun _ h => (mapM_getElem? h).1

/-- A selection keeps no more than there is. -/
lemma satisfiesM_filterM (f : β → Except ε Bool) (items : List β) :
    SatisfiesM (fun kept => kept.length ≤ items.length) (items.filterM f) := by
  have haux : ∀ kept, SatisfiesM (fun all => all.length ≤ items.length + kept.length)
      (items.filterAuxM f kept) := by
    induction items with
    | nil => exact fun kept => .pure (by simp)
    | cons x rest ih =>
        intro kept
        rw [List.filterAuxM]
        refine satisfiesM_after fun passed => (ih _).imp fun {all} hall => ?_
        cases passed <;> simp at hall ⊢ <;> omega
  rw [List.filterM]
  exact .bind (haux []) fun all hall => .pure (by simpa using hall)

end Traversals

lemma length_ordered {α β : Type} [LT α] [DecidableLT α] (key : β → α) (items : List β) :
    (Scalar.ordered key items).length = items.length :=
  (ordered_perm key items).length_eq

/-! ## Flags and points -/

section Results

variable {α : Type}

/-- **What a flag says about the points.**  Only a run must have two, an ordinary result may have up
to two, and every other flag stands alone. -/
structure Intersection.Fits (r : Intersection α) : Prop where
  plain : r.flag = .plain → r.points.length ≤ 2
  edge : r.flag = .edge → r.points.length = 2
  alone : r.flag ≠ .plain → r.flag ≠ .edge → r.points = []

namespace Intersection

lemma fits_flagged {flag : Flag} (h : flag ≠ .edge) : (flagged flag : Intersection α).Fits :=
  ⟨fun _ => Nat.zero_le 2, fun hedge => absurd hedge h, fun _ _ => rfl⟩

lemma fits_crossing {points : List (Point α)} (h : points.length ≤ 2) : (crossing points).Fits :=
  ⟨fun _ => h, nofun, fun hplain => absurd rfl hplain⟩

lemma fits_miss : (miss : Intersection α).Fits := by
  show (crossing []).Fits
  exact fits_crossing (Nat.zero_le 2)

lemma fits_run (p q : Point α) : (run p q).Fits :=
  ⟨nofun, fun _ => rfl, fun _ hedge => absurd rfl hedge⟩

end Intersection

variable [Sub α] [LT α] [LE α] [DecidableLT α] [DecidableLE α] [Elementary α]

/-- **The flags that two kinds of segments leave.**  Lines may share a run, but nothing else; a line
and a curve touch at most; full circles share no run; and curves of which one is an arc are never
called identical, but share a run if their circles are the same. -/
def Segment.Permits (s t : Segment α) (radiusTol : α) (flag : Intersection.Flag) : Prop :=
  match s, t with
  | line _, line _ => flag = .plain ∨ flag = .edge
  | line _, curve _ | curve _, line _ => flag = .plain ∨ flag = .tangent
  | curve (.circle _), curve (.circle _) => flag ≠ .edge
  | curve c, curve d =>
      flag ≠ .identical ∧ (flag = .edge → c.support.same d.support radiusTol = true)

/-- **The shape of a result.**  Its flag suits its points and the kinds of the segments, and its
size, its truth and its list say the same as its points. -/
structure Intersection.Shaped (s t : Segment α) (radiusTol : α) (r : Intersection α) : Prop where
  fits : r.Fits
  permitted : s.Permits t radiusTol r.flag
  size_eq : r.size = r.toList.length
  isHit_iff : r.isHit = true ↔ r.toList ≠ []
  toList_eq : r.toList = r.points

lemma Intersection.Shaped.of_fits {s t : Segment α} {radiusTol : α} {r : Intersection α}
    (hfits : r.Fits) (hflag : s.Permits t radiusTol r.flag) : r.Shaped s t radiusTol :=
  ⟨hfits, hflag, rfl, by simp [isHit, size, toList, List.length_pos_iff], rfl⟩

end Results

/-! ## The exits of the solvers -/

section Lines

variable {α : Type} [Add α] [Sub α] [Mul α] [Div α] [Neg α] [LT α] [LE α] [DecidableLT α]
  [DecidableLE α] [BEq α] [OfNat α 0] [OfNat α 1] [OfScientific α] [Elementary α]

lemma Line.satisfiesM_intersect (a b : Line α) (tol : α) :
    SatisfiesM (fun r => r.Fits ∧ (r.flag = .plain ∨ r.flag = .edge)) (a.intersect b tol) := by
  have hmiss : SatisfiesM (fun r => r.Fits ∧ (r.flag = .plain ∨ r.flag = .edge))
      (.ok .miss : Except (Fault α) (Intersection α)) :=
    .pure ⟨Intersection.fits_miss, .inl rfl⟩
  have hpoint : ∀ p : Point α, SatisfiesM (fun r => r.Fits ∧ (r.flag = .plain ∨ r.flag = .edge))
      (.ok (.crossing [p]) : Except (Fault α) (Intersection α)) := fun p =>
    .pure ⟨Intersection.fits_crossing (Nat.le_succ 1), .inl rfl⟩
  unfold intersect
  split_ifs
  · -- parallel lines
    refine satisfiesM_after fun off => ?_
    split_ifs
    · exact hmiss
    · refine satisfiesM_after fun first => satisfiesM_after fun last => ?_
      dsimp only
      split_ifs
      · exact hmiss
      · exact hpoint _
      · exact .pure ⟨Intersection.fits_run _ _, .inr rfl⟩
  · -- lines that cross
    refine satisfiesM_after fun s => satisfiesM_after fun t => satisfiesM_after fun slackA => ?_
    split_ifs
    · exact hmiss
    · refine satisfiesM_after fun slackB => ?_
      split_ifs
      · exact hmiss
      · exact hpoint _

end Lines

section Touching

variable {α : Type} [Add α] [Sub α] [Mul α] [LE α] [DecidableLE α] [OfScientific α] [Elementary α]

lemma Arc.satisfiesM_touching (a b : Arc α) (runs : List (Run α)) (tol : α) :
    SatisfiesM (fun points => points.length ≤ runs.length) (a.touching b runs tol) := by
  refine .bind (satisfiesM_mapM _ runs) fun points hpoints => ?_
  split
  · split_ifs
    · exact .pure ((Nat.le_succ 1).trans hpoints.le)
    · exact .pure hpoints.le
  · exact .pure hpoints.le

end Touching

section Solvers

variable {α : Type} [Add α] [Sub α] [Mul α] [LT α] [LE α] [DecidableLT α] [DecidableLE α]
  [Elementary α]

/-- Circles that touch, lie inside each other or are the same are flagged as such, the last of them
only if they pass the test. -/
lemma Circle.flag_of_position {a b : Circle α} {radiusTol : α} {flag : Intersection.Flag}
    (h : a.position b radiusTol = .related flag) :
    flag ≠ .edge ∧ (flag = .identical → a.same b radiusTol = true) := by
  unfold position at h
  dsimp only at h
  split_ifs at h with hapart hsame <;> cases h
  · exact ⟨nofun, fun _ => hsame⟩
  all_goals exact ⟨nofun, nofun⟩

variable [Div α] [BEq α] [OfNat α 0] [OfNat α 2]

namespace Circle

lemma satisfiesM_crossings (a b : Circle α) :
    SatisfiesM (fun points => points.length = 2) (a.crossings b) :=
  satisfiesM_after fun _ => satisfiesM_after fun _ => satisfiesM_after fun _ =>
    .pure (length_ordered _ _)

lemma satisfiesM_intersect (a b : Circle α) (radiusTol : α) :
    SatisfiesM (fun r => r.Fits ∧ r.flag ≠ .edge) (a.intersect b radiusTol) := by
  unfold intersect
  split
  · exact .pure ⟨Intersection.fits_miss, nofun⟩
  · next flag hflag =>
      have hedge := (flag_of_position hflag).1
      exact .pure ⟨Intersection.fits_flagged hedge, hedge⟩
  · exact .bind (satisfiesM_crossings a b) fun points hpoints =>
      .pure ⟨Intersection.fits_crossing hpoints.le, nofun⟩

end Circle

lemma Curve.satisfiesM_select (c : Curve α) (points : List (Point α)) (tol : α) :
    SatisfiesM (fun selected => selected.length ≤ points.length) (c.select points tol) := by
  cases c with
  | circle k => exact .pure (length_ordered _ _).le
  | arc a =>
      exact .bind (satisfiesM_filterM _ points) fun kept hkept =>
        .pure ((length_ordered _ _).trans_le hkept)

lemma Line.satisfiesM_intersectCurve [OfNat α 1] [Widening α] (l : Line α) (c : Curve α)
    (tol radiusTol : α) :
    SatisfiesM (fun r => r.Fits ∧ (r.flag = .plain ∨ r.flag = .tangent))
      (l.intersectCurve c tol radiusTol) := by
  have hroots : ∀ q : Quadratic α, SatisfiesM (fun params => params.length = 2) q.roots := fun q =>
    satisfiesM_after fun _ => satisfiesM_after fun _ => .pure rfl
  have hpoints : ∀ params : List α, (l.pointsAt params).length ≤ params.length := fun params => by
    rw [pointsAt, List.length_map]
    exact List.length_filter_le _ _
  unfold intersectCurve
  dsimp only
  split_ifs
  · exact .pure ⟨Intersection.fits_flagged nofun, .inr rfl⟩
  · exact .pure ⟨Intersection.fits_miss, .inl rfl⟩
  · refine .bind (hroots _) fun params hparams => ?_
    refine .bind (c.satisfiesM_select _ tol) fun selected hselected => ?_
    exact .pure ⟨Intersection.fits_crossing (hselected.trans ((hpoints params).trans hparams.le)),
      .inl rfl⟩

variable [Neg α] [OfScientific α]

lemma Arc.satisfiesM_overlap (a b : Arc α) (tol : α) :
    SatisfiesM (fun r => r.Fits ∧ (r.flag = .plain ∨ r.flag = .edge)) (a.overlap b tol) := by
  unfold overlap
  dsimp only
  split
  · exact satisfiesM_after fun p => satisfiesM_after fun q =>
      .pure ⟨Intersection.fits_run p q, .inr rfl⟩
  · refine .bind (a.satisfiesM_touching b _ tol) fun points hpoints => .pure ⟨?_, .inl rfl⟩
    exact Intersection.fits_crossing
      ((length_ordered _ _).trans_le (hpoints.trans (length_runs_le a b tol)))

namespace Curve

lemma satisfiesM_intersectSame (a b : Curve α) (tol : α) :
    SatisfiesM (fun r => r.Fits ∧ (r.flag = .plain ∨ r.flag = .edge)) (a.intersectSame b tol) := by
  cases a with
  | circle k => exact .pure ⟨Intersection.fits_run _ _, .inr rfl⟩
  | arc a =>
      cases b with
      | circle k => exact .pure ⟨Intersection.fits_run _ _, .inr rfl⟩
      | arc b => exact a.satisfiesM_overlap b tol

/-- **The exits of the solver for arcs.**  The test for the same circle comes first, so the position
of circles that pass it is never looked at. -/
lemma satisfiesM_intersectArcs (a b : Curve α) (tol radiusTol : α) :
    SatisfiesM (fun r => r.Fits ∧ r.flag ≠ .identical ∧
        (r.flag = .edge → a.support.same b.support radiusTol = true))
      (a.intersectArcs b tol radiusTol) := by
  unfold intersectArcs
  by_cases hsame : a.support.same b.support radiusTol = true
  · rw [if_pos hsame]
    refine (a.satisfiesM_intersectSame b tol).imp fun hr => ⟨hr.1, ?_, fun _ => hsame⟩
    rcases hr.2 with hflag | hflag <;> rw [hflag] <;> nofun
  · rw [if_neg hsame]
    split
    · exact .pure ⟨Intersection.fits_miss, nofun, nofun⟩
    · next flag hflag =>
        obtain ⟨hedge, hidentical⟩ := Circle.flag_of_position hflag
        exact .pure ⟨Intersection.fits_flagged hedge, mt hidentical hsame, fun h => absurd h hedge⟩
    · refine .bind (Circle.satisfiesM_crossings _ _) fun points hpoints => ?_
      refine .bind (satisfiesM_filterM _ points) fun kept hkept => .pure ⟨?_, nofun, nofun⟩
      exact Intersection.fits_crossing ((length_ordered _ _).trans_le (hkept.trans hpoints.le))

end Curve

variable [OfNat α 1] [Widening α]

/-- **The exits of all solvers.** -/
lemma Segment.satisfiesM_intersect (s t : Segment α) (tol radiusTol : α) :
    SatisfiesM (fun r => r.Shaped s t radiusTol) (s.intersect t tol radiusTol) := by
  cases s with
  | line a =>
      cases t with
      | line b => exact (a.satisfiesM_intersect b tol).imp fun hr => .of_fits hr.1 hr.2
      | curve c =>
          exact (a.satisfiesM_intersectCurve c tol radiusTol).imp fun hr => .of_fits hr.1 hr.2
  | curve c =>
      cases t with
      | line b =>
          exact (b.satisfiesM_intersectCurve c tol radiusTol).imp fun hr => .of_fits hr.1 hr.2
      | curve d =>
          have harcs : SatisfiesM (fun r => r.Fits ∧ r.flag ≠ .identical ∧
              (r.flag = .edge → c.support.same d.support radiusTol = true))
              (c.intersectArcs d tol radiusTol) :=
            c.satisfiesM_intersectArcs d tol radiusTol
          cases c with
          | arc a => exact harcs.imp fun hr => .of_fits hr.1 (by cases d <;> exact hr.2)
          | circle k =>
              cases d with
              | arc a => exact harcs.imp fun hr => .of_fits hr.1 hr.2
              | circle k' =>
                  exact (k.satisfiesM_intersect k' radiusTol).imp fun hr => .of_fits hr.1 hr.2

/-- What two operands have in common is what the segments they hold have in common. -/
lemma Operand.exists_of_intersection {a b : Operand α} {tol radiusTol : α} {r : Intersection α}
    (h : a.intersection b tol radiusTol = .ok r) :
    ∃ s t, a.require "first segment" = .ok s ∧ b.require "second segment" = .ok t ∧
      s.intersect t tol radiusTol = .ok r := by
  obtain ⟨s, hs, h⟩ := exists_of_bind_eq_ok h
  obtain ⟨t, ht, h⟩ := exists_of_bind_eq_ok h
  exact ⟨s, t, hs, ht, h⟩

/-- **The shape of every result.**  Whatever two operands are, checked or not, and whatever the
tolerances and the arithmetic: if they have a result, it is shaped by the segments they hold. -/
theorem Operand.intersect_shaped {a b : Operand α} {tol radiusTol : α} {log : Log α}
    {r : Intersection α} (h : (a.intersect b tol radiusTol log).1 = .ok r) :
    ∃ s t, a.require "first segment" = .ok s ∧ b.require "second segment" = .ok t ∧
      r.Shaped s t radiusTol := by
  have hresult : a.intersection b tol radiusTol = .ok r := by
    unfold intersect logged at h
    split at h
    · cases h
    · exact h
  obtain ⟨s, t, hs, ht, hmet⟩ := exists_of_intersection hresult
  have hshaped := SatisfiesM_Except_eq.mp (s.satisfiesM_intersect t tol radiusTol)
  exact ⟨s, t, hs, ht, hshaped r hmet⟩

end Solvers

/-- A quarter of a circle of radius five, among doubles. -/
def quarterOfFive : Arc Float :=
  ⟨⟨0, 0, 0⟩, 5, ⟨5, 0, 0⟩, ⟨0, 5, 0⟩, 0, 1.5707963267948966, false⟩

/-- A circle that nobody checked shares the whole quarter, in doubles. -/
theorem Operand.intersect_shaped_quarterOfFive :
    (intersect (.segment (.curve (.circle ⟨⟨0, 0, 0⟩, 5⟩))) (.segment (.curve (.arc quarterOfFive)))
        coincidentTol radiusTol .empty).1 = .ok (.run ⟨5, 0, 0⟩ ⟨0, 5, 0⟩) ∧
      ∃ s t, require "first segment" (.segment (.curve (.circle ⟨⟨0, 0, 0⟩, 5⟩)) : Operand Float) = .ok s ∧
        require "second segment" (.segment (.curve (.arc quarterOfFive))) = .ok t ∧
        (Intersection.run ⟨5, 0, 0⟩ ⟨0, 5, 0⟩).Shaped s t radiusTol := by
  have h : (intersect (.segment (.curve (.circle ⟨⟨0, 0, 0⟩, 5⟩)))
      (.segment (.curve (.arc quarterOfFive))) coincidentTol radiusTol .empty).1
        = .ok (.run ⟨5, 0, 0⟩ ⟨0, 5, 0⟩) := rfl
  exact ⟨h, intersect_shaped h⟩

end Contour
